import Determinization.Proofs.Automaton.Numbering
import Mathlib.Data.Set.Function

/-!
# Numbers in the order of discovery

The canonical form is the reachable part of the automaton with numbers for names, whatever the
automaton: with transitions on the empty word, with several targets on one symbol, with cycles.

* The search that hands out the numbers expands every reachable state once and then has nothing left
  to do; its limit is not what ends it (`numberingSearch_eq`).
* The numbers are those below the number of reachable states, and each of them names one state
  (`bijOn_canonicalName`).  Nothing is lost on the way: the canonical form consists of the names of
  everything reachable (`isImage_canonicalize`).
* A state other than the initial one is found from a state that was found before.  So every number
  but zero has a transition from a smaller one (`exists_transition_from_smaller`).
-/

namespace Determinization
namespace Automaton

variable {a : Automaton} {s : State} {n limit : Nat}

/-! ## The search -/

/-- The search that hands out the numbers, with room for so many states. -/
def numberingSearch (a : Automaton) (limit : Nat) : Search State :=
  Search.explore .lifo (fun s => (a.orderedMoves s).map Prod.snd) limit [a.initial]

/-- Room for the reachable states is room enough. -/
theorem pending_numberingSearch (ha : a.Consistent) (hlimit : a.reachable.size ≤ limit) :
    (a.numberingSearch limit).pending = [] := by
  have hwhole : ∀ s, Search.Joined (fun s => (a.orderedMoves s).map Prod.snd) [a.initial] s →
      s ∈ a.reachable.toList := fun s hs =>
    mem_reachable.2 ((joined_iff_reachable (mem_map_snd_orderedMoves ha)).1 hs)
  exact Search.pending_explore hwhole hlimit

/-- **The limit is never what ends the search.** -/
theorem numberingSearch_eq (ha : a.Consistent) (hlimit : a.reachable.size ≤ limit) :
    a.numberingSearch limit = a.canonicalSearch := by
  have hended := pending_numberingSearch ha hlimit
  have hended' := pending_canonicalSearch ha
  -- both searches are what a search with more room than either is
  calc a.numberingSearch limit
    _ = a.numberingSearch (max limit (1 + a.transitions.size)) :=
        (Search.explore_eq_of_le hended (Nat.le_max_left _ _)).symm
    _ = a.canonicalSearch := Search.explore_eq_of_le hended' (Nat.le_max_right _ _)

/-- No state is expanded twice. -/
theorem nodup_expanded_canonicalSearch (a : Automaton) : a.canonicalSearch.expanded.Nodup := by
  have hsound := Search.sound_explore .lifo (fun s => (a.orderedMoves s).map Prod.snd)
    (1 + a.transitions.size) [a.initial]
  exact (List.nodup_append.1 hsound.nodup_append).1

/-- Everything that the search finds but the initial state is a target of a state found before. -/
theorem exists_found_before (ha : a.Consistent) (hs : s ∈ a.canonicalSearch.found)
    (hne : s ≠ a.initial) :
    ∃ r ∈ a.canonicalSearch.found, (∃ x, ⟨r, x, s⟩ ∈ a.transitions) ∧
      a.canonicalSearch.found.idxOf r < a.canonicalSearch.found.idxOf s := by
  have htraced := Search.traced_explore .lifo (fun s => (a.orderedMoves s).map Prod.snd)
    (1 + a.transitions.size) [a.initial]
  rcases htraced s hs with hseed | ⟨r, hr, htarget, hlt⟩
  · exact absurd (List.mem_singleton.1 hseed) hne
  · exact ⟨r, hr, (mem_map_snd_orderedMoves ha r s).1 htarget, hlt⟩

/-! ## The numbers -/

/-- **The reachable states are numbered one to one from zero on.** -/
theorem bijOn_canonicalName (ha : a.Consistent) (hsize : a.reachable.size ≤ 2 ^ 32) :
    Set.BijOn a.canonicalName {s | s ∈ a.reachable}
      {t | ∃ n < a.reachable.size, t = .simple (UInt32.ofNat n)} := by
  have himage := isImage_canonicalize ha
  refine ⟨fun s hs => ?_, fun s hs t ht heq => ?_, fun t ht => ?_⟩
  · have hname := himage.mem_states.2 ⟨s, mem_reachable.1 hs, rfl⟩
    exact (mem_states_canonicalize ha).1 hname
  · exact tellsApart_canonicalName ha hsize (mem_reachable.1 hs) (mem_reachable.1 ht) heq
  · obtain ⟨s, hs, rfl⟩ := himage.mem_states.1 ((mem_states_canonicalize ha).2 ht)
    exact ⟨s, mem_reachable.2 hs, rfl⟩

/-- **Every number but zero has a transition from a smaller number.** -/
theorem exists_transition_from_smaller (ha : a.Consistent) (hn : 0 < n)
    (hlt : n < a.reachable.size) :
    ∃ m < n, ∃ x, ⟨.simple (UInt32.ofNat m), x, .simple (UInt32.ofNat n)⟩ ∈
      a.canonicalize.transitions := by
  rw [← length_found_canonicalSearch ha] at hlt
  obtain ⟨s, hs, hposition⟩ : ∃ s ∈ a.canonicalSearch.found,
      a.canonicalSearch.found.idxOf s = n :=
    ⟨_, List.getElem_mem hlt, a.nodup_found_canonicalSearch.idxOf_getElem n hlt⟩
  have hne : s ≠ a.initial := by
    rintro rfl
    have hzero : a.canonicalSearch.found.idxOf a.initial = 0 :=
      Search.idxOf_found_explore_singleton _ _ _ _
    omega
  obtain ⟨r, hr, ⟨x, hstep⟩, hbefore⟩ := exists_found_before ha hs hne
  have hreachable : a.Reachable r := (mem_found_canonicalSearch ha).1 hr
  have hname : a.canonicalName s = .simple (UInt32.ofNat n) := by
    rw [canonicalName, numbered, hposition]
  rw [hposition] at hbefore
  refine ⟨a.canonicalSearch.found.idxOf r, hbefore, x, ?_⟩
  rw [← hname]
  exact (isImage_canonicalize ha).mem_transitions.2 ⟨r, x, s, hreachable, hstep, rfl⟩

/-! ## The canonical form -/

/-- **Canonical numbering is a faithful renaming of the reachable part**, for automata of any kind.

* The search expands each reachable state once and ends; no limit with room for the reachable states
  changes what it does.
* There is a function that maps the reachable states one to one onto the numbers from zero on, the
  initial state to zero, and the canonical form consists of the images of what is reachable.
* Every number but zero has a transition from a smaller one.
* The same words are accepted. -/
theorem canonicalize_renames (ha : a.Consistent) (hsize : a.reachable.size < 2 ^ 32) :
    (a.canonicalSearch.pending = [] ∧ a.canonicalSearch.expanded.Nodup ∧
        (∀ s, s ∈ a.canonicalSearch.expanded ↔ s ∈ a.reachable) ∧
        ∀ limit, a.reachable.size ≤ limit → a.numberingSearch limit = a.canonicalSearch) ∧
      (∃ f : State → State,
        Set.BijOn f {s | s ∈ a.reachable}
          {t | ∃ n < a.reachable.size, t = .simple (UInt32.ofNat n)} ∧
        f a.initial = .simple 0 ∧ IsImage (· ∈ a.reachable) f a a.canonicalize) ∧
      (∀ n, 0 < n → n < a.reachable.size →
        ∃ m < n, ∃ x, ⟨.simple (UInt32.ofNat m), x, .simple (UInt32.ofNat n)⟩ ∈
          a.canonicalize.transitions) ∧
      ∀ w, a.canonicalize.accepts w = a.accepts w := by
  have hle := Nat.le_of_lt hsize
  have hpart : (· ∈ a.reachable) = a.Reachable := funext fun s => propext mem_reachable
  refine ⟨⟨pending_canonicalSearch ha, a.nodup_expanded_canonicalSearch, fun s => ?_,
    fun limit => numberingSearch_eq ha⟩, ⟨a.canonicalName, bijOn_canonicalName ha hle,
    a.canonicalName_initial, ?_⟩, fun n => exists_transition_from_smaller ha, fun w => ?_⟩
  · rw [mem_expanded_canonicalSearch ha, mem_reachable]
  · rw [hpart]
    exact isImage_canonicalize ha
  · exact ((renaming_canonicalize ha hle).accepts_eq w).symm

/-- An automaton with two targets on one symbol, a silent transition, a cycle, and an accepting
state that is not reachable. -/
def crossing : Automaton :=
  ofParts [.simple 5, .simple 2, .simple 9, .simple 7] (SortedSet.ofList ['a', 'b'])
    [⟨.simple 5, .char 'a', .simple 9⟩, ⟨.simple 5, .char 'a', .simple 2⟩,
      ⟨.simple 2, .epsilon, .simple 9⟩, ⟨.simple 9, .char 'b', .simple 5⟩,
      ⟨.simple 7, .epsilon, .simple 5⟩] (.simple 5) [.simple 9, .simple 7]

theorem build_crossing :
    build [.simple 5, .simple 2, .simple 9, .simple 7] (SortedSet.ofList ['a', 'b'])
      [⟨.simple 5, .char 'a', .simple 9⟩, ⟨.simple 5, .char 'a', .simple 2⟩,
        ⟨.simple 2, .epsilon, .simple 9⟩, ⟨.simple 9, .char 'b', .simple 5⟩,
        ⟨.simple 7, .epsilon, .simple 5⟩] (.simple 5) [.simple 9, .simple 7] = .ok crossing := rfl

example : crossing.canonicalSearch.found = [.simple 5, .simple 2, .simple 9] := by decide +kernel

theorem canonicalize_renames_crossing :
    crossing.Consistent ∧ crossing.reachable.size = 3 ∧
      (∃ f : State → State,
        Set.BijOn f {s | s ∈ crossing.reachable}
          {t | ∃ n < crossing.reachable.size, t = .simple (UInt32.ofNat n)} ∧
        f crossing.initial = .simple 0 ∧
        IsImage (· ∈ crossing.reachable) f crossing crossing.canonicalize) ∧
      (∃ m < 2, ∃ x,
        ⟨.simple (UInt32.ofNat m), x, .simple 2⟩ ∈ crossing.canonicalize.transitions) ∧
      crossing.canonicalize.accepts ['a', 'b', 'a'] = crossing.accepts ['a', 'b', 'a'] := by
  have hcons := consistent_of_build build_crossing
  have hsize : crossing.reachable.size = 3 := by decide +kernel
  obtain ⟨-, hnames, hsmaller, haccepts⟩ :=
    canonicalize_renames hcons (by rw [hsize]; decide)
  exact ⟨hcons, hsize, hnames, hsmaller 2 (by decide) (by rw [hsize]; decide), haccepts _⟩

end Automaton
end Determinization
