import Determinization.Automaton.Subset
import Determinization.Proofs.Automaton.Determinism
import Determinization.Proofs.Automaton.Reachability
import Mathlib.Data.List.Sublists

/-!
# The accessible powerset automaton

The deterministic automaton that the subset construction builds has one state for every set that
some word leads to, and no others.  `afterState a w` is the state that stands for the set after the
word `w`; reading a further character moves from it to `afterState a (w ++ [c])`
(`successorSet_afterState`), so every question about the construction is a question about words.

## Why the search ends

The states after words are sets of declared states.  There are `2 ^ n` of those for an automaton
with `n` states, listed by `sublists`, and that is the room which `subsetSearch` has.  The search
therefore ends because nothing is pending, whatever the worklist order, and what it found are the
states after words (`mem_found_subsetSearch`).

## Main statements

* `mem_states_toDfa`, `mem_transitions_toDfa`, `afterState_mem_accepting`: the construction, part
  by part.
* `toDfa_eq_of_after_eq`: automata with the same sets after words have the same result;
  `toDfa_eq_toDfa`: the worklist order makes no difference.
* `consistent_toDfa`, `deterministic_toDfa`: the result is a deterministic automaton.
* `leads_toDfa_iff`: a word over the alphabet leads from the initial state to the state after it,
  and to no other.
-/

namespace Determinization

/-- Only the targets that a table gives for its sources and characters count. -/
theorem Relation.ofTable_congr {sources : SortedSet State} {characters : Alphabet}
    {target target' : State → Char → State}
    (h : ∀ s ∈ sources, ∀ c ∈ characters, target s c = target' s c) :
    ofTable sources characters target = ofTable sources characters target' := by
  simp only [ofTable, mk.injEq]
  refine List.flatMap_congr fun s hs => List.map_congr_left fun c hc => ?_
  rw [h s hs c hc]

namespace Automaton

variable {a : Automaton} {order : WorklistOrder} {s t : State} {c : Char} {v w : List Char}

/-- The state that stands for the set after the word. -/
def afterState (a : Automaton) (w : List Char) : State := State.composite (a.after w)

theorem afterState_eq_iff : a.afterState v = a.afterState w ↔ a.after v = a.after w :=
  ⟨State.composite_injective, congrArg State.composite⟩

theorem members_afterState (a : Automaton) (w : List Char) :
    (a.afterState w).members = (a.after w).toList := State.members_composite _

/-- **A character leads from the state after a word to the state after the longer word.** -/
theorem successorSet_afterState (a : Automaton) (w : List Char) (c : Char) :
    a.successorSet (a.afterState w) c = a.afterState (w ++ [c]) := by
  rw [successorSet, members_afterState, afterState, after_append_singleton]

/-! ## The search -/

/-- The search for sets is joined to the states after words. -/
theorem joined_successorSet_iff :
    Search.Joined (fun s => a.alphabet.toList.map (a.successorSet s)) [a.afterState []] s ↔
      ∃ w, a.alphabet.Spells w ∧ s = a.afterState w := by
  constructor
  · rintro ⟨i, hi, his⟩
    rw [List.mem_singleton] at hi
    induction his with
    | refl => exact ⟨[], Alphabet.spells_nil, hi⟩
    | tail _ hstep ih =>
        obtain ⟨w, hw, rfl⟩ := ih
        obtain ⟨c, hc, rfl⟩ := List.mem_map.1 hstep
        exact ⟨w ++ [c], Alphabet.spells_append_singleton.2 ⟨hw, hc⟩,
          successorSet_afterState a w c⟩
  · rintro ⟨w, hw, rfl⟩
    induction w using List.reverseRecOn with
    | nil => exact Search.Joined.seed (List.mem_singleton.2 rfl)
    | append_singleton w c ih =>
        obtain ⟨hw, hc⟩ := Alphabet.spells_append_singleton.1 hw
        refine (ih hw).neighbour ?_
        rw [← successorSet_afterState]
        exact List.mem_map.2 ⟨c, hc, rfl⟩

/-- The state after a word is one of the `2 ^ n` sets of declared states. -/
theorem Consistent.afterState_mem_sublists (ha : a.Consistent) (w : List Char) :
    a.afterState w ∈ a.states.toList.sublists.map State.ofMembers := by
  refine List.mem_map.2 ⟨a.states.toList.filter fun s => decide (s ∈ a.after w), ?_, ?_⟩
  · exact List.mem_sublists.2 List.filter_sublist
  · refine congrArg State.composite (SortedSet.ext fun s => ?_)
    rw [SortedSet.mem_ofList, List.mem_filter, decide_eq_true_iff, SortedSet.mem_toList]
    exact and_iff_right_of_imp ha.mem_states_of_mem_after

/-- The search has room for everything that it can find. -/
theorem exists_universe_subsetSearch (ha : a.Consistent) :
    ∃ whole : List State, whole.length ≤ Nat.pow 2 a.states.size ∧
      ∀ s, Search.Joined (fun s => a.alphabet.toList.map (a.successorSet s)) [a.afterState []] s →
        s ∈ whole := by
  refine ⟨a.states.toList.sublists.map State.ofMembers, ?_, fun s hs => ?_⟩
  · rw [List.length_map, List.length_sublists, SortedSet.size]
    exact Nat.le_refl _
  · obtain ⟨w, -, rfl⟩ := joined_successorSet_iff.1 hs
    exact ha.afterState_mem_sublists w

theorem pending_subsetSearch (ha : a.Consistent) (order : WorklistOrder) :
    (a.subsetSearch order).pending = [] := by
  obtain ⟨whole, hlength, hwhole⟩ := exists_universe_subsetSearch ha
  exact Search.pending_explore hwhole hlength

/-- **The search finds the states after words, and nothing else.** -/
theorem mem_found_subsetSearch (ha : a.Consistent) (order : WorklistOrder) :
    s ∈ (a.subsetSearch order).found ↔ ∃ w, a.alphabet.Spells w ∧ s = a.afterState w := by
  rw [← joined_successorSet_iff]
  exact (Search.sound_explore _ _ _ _).mem_found (pending_subsetSearch ha order)

/-! ## The parts of the result -/

/-- **The states of the result are the states after words.** -/
theorem mem_states_toDfa (ha : a.Consistent) :
    s ∈ (a.toDfa order).automaton.states ↔ ∃ w, a.alphabet.Spells w ∧ s = a.afterState w := by
  rw [← mem_found_subsetSearch ha order]
  exact SortedSet.mem_ofList

theorem afterState_mem_states (ha : a.Consistent) (hw : a.alphabet.Spells w) :
    a.afterState w ∈ (a.toDfa order).automaton.states := (mem_states_toDfa ha).2 ⟨w, hw, rfl⟩

theorem mem_accepting_toDfa :
    s ∈ (a.toDfa order).automaton.accepting ↔
      s ∈ (a.toDfa order).automaton.states ∧ a.isAcceptingSet s.members = true :=
  SortedSet.mem_filter

/-- **A set is accepting when one of its members is.** -/
theorem afterState_mem_accepting (ha : a.Consistent) (hw : a.alphabet.Spells w) :
    a.afterState w ∈ (a.toDfa order).automaton.accepting ↔ ∃ m ∈ a.after w, m ∈ a.accepting := by
  rw [mem_accepting_toDfa, isAcceptingSet_eq_true_iff, members_afterState]
  exact and_iff_right (afterState_mem_states ha hw)

/-- **The result depends on nothing but the alphabet, the sets after words, and which of their
members are accepting**, hence not on the worklist order either. -/
theorem toDfa_eq_of_after_eq {b : Automaton} (ha : a.Consistent) (hb : b.Consistent)
    (halphabet : a.alphabet = b.alphabet) (hafter : ∀ w, a.after w = b.after w)
    (haccepting : ∀ w, ∀ m ∈ a.after w, m ∈ a.accepting ↔ m ∈ b.accepting)
    (order order' : WorklistOrder) : a.toDfa order = b.toDfa order' := by
  have hstate : ∀ w, a.afterState w = b.afterState w := fun w =>
    congrArg State.composite (hafter w)
  have hsets : (a.toDfa order).automaton.states = (b.toDfa order').automaton.states := by
    refine SortedSet.ext fun s => ?_
    simp only [mem_states_toDfa ha, mem_states_toDfa hb, halphabet, hstate]
  have hmoves : (a.toDfa order).automaton.transitions = (b.toDfa order').automaton.transitions := by
    refine (Relation.ofTable_congr fun s hs c _ => ?_).trans
      (congrArg₂ (Relation.ofTable · · b.successorSet) hsets halphabet)
    obtain ⟨w, -, rfl⟩ := (mem_states_toDfa ha).1 hs
    rw [successorSet_afterState, hstate, hstate, successorSet_afterState]
  have hfinal : (a.toDfa order).automaton.accepting = (b.toDfa order').automaton.accepting := by
    have hmembers : ∀ s ∈ (a.toDfa order).automaton.states,
        (a.isAcceptingSet s.members = true ↔ b.isAcceptingSet s.members = true) := by
      intro s hs
      obtain ⟨w, -, rfl⟩ := (mem_states_toDfa ha).1 hs
      rw [isAcceptingSet_eq_true_iff, isAcceptingSet_eq_true_iff, members_afterState]
      exact exists_congr fun m => and_congr_right (haccepting w m)
    refine SortedSet.ext fun s => ?_
    calc s ∈ (a.toDfa order).automaton.accepting
      _ ↔ s ∈ (a.toDfa order).automaton.states ∧ a.isAcceptingSet s.members = true :=
          mem_accepting_toDfa
      _ ↔ s ∈ (b.toDfa order').automaton.states ∧ b.isAcceptingSet s.members = true := by
          rw [← hsets]
          exact and_congr_right (hmembers s)
      _ ↔ s ∈ (b.toDfa order').automaton.accepting := mem_accepting_toDfa.symm
  exact congrArg Dfa.mk (eq_of_parts_eq hsets halphabet hmoves (hstate []) hfinal)

/-- **The worklist order makes no difference.** -/
theorem toDfa_eq_toDfa (ha : a.Consistent) (order order' : WorklistOrder) :
    a.toDfa order = a.toDfa order' :=
  toDfa_eq_of_after_eq ha ha rfl (fun _ => rfl) (fun _ _ _ => Iff.rfl) order order'

/-- From the state after a word, the characters lead to the states after the longer words. -/
theorem mem_transitions_afterState_iff (ha : a.Consistent) (hw : a.alphabet.Spells w)
    {x : Symbol} :
    ⟨a.afterState w, x, t⟩ ∈ (a.toDfa order).automaton.transitions ↔
      ∃ c ∈ a.alphabet, x = .char c ∧ t = a.afterState (w ++ [c]) := by
  have hs : a.afterState w ∈ (a.toDfa order).automaton.states := afterState_mem_states ha hw
  refine Relation.mem_ofTable.trans ((and_iff_right hs).trans ?_)
  simp only [successorSet_afterState]

theorem afterState_step_iff (ha : a.Consistent) (hw : a.alphabet.Spells w)
    (hc : c ∈ a.alphabet) :
    ⟨a.afterState w, .char c, t⟩ ∈ (a.toDfa order).automaton.transitions ↔
      t = a.afterState (w ++ [c]) := by
  rw [mem_transitions_afterState_iff ha hw]
  constructor
  · rintro ⟨d, -, h, rfl⟩
    rw [Symbol.char.inj h]
  · rintro rfl
    exact ⟨c, hc, rfl, rfl⟩

/-- **The transitions of the result follow the words.** -/
theorem mem_transitions_toDfa (ha : a.Consistent) {t : Transition} :
    t ∈ (a.toDfa order).automaton.transitions ↔
      ∃ w c, a.alphabet.Spells w ∧ c ∈ a.alphabet ∧
        t = ⟨a.afterState w, .char c, a.afterState (w ++ [c])⟩ := by
  constructor
  · intro ht
    have hs : t.source ∈ (a.toDfa order).automaton.states := (Relation.mem_ofTable.1 ht).1
    obtain ⟨w, hw, hsource⟩ := (mem_states_toDfa ha).1 hs
    obtain ⟨s, x, u⟩ := t
    obtain rfl : s = a.afterState w := hsource
    obtain ⟨c, hc, rfl, rfl⟩ := (mem_transitions_afterState_iff ha hw).1 ht
    exact ⟨w, c, hw, hc, rfl⟩
  · rintro ⟨w, c, hw, hc, rfl⟩
    exact (mem_transitions_afterState_iff ha hw).2 ⟨c, hc, rfl, rfl⟩

theorem consistent_toDfa (ha : a.Consistent) (order : WorklistOrder) :
    (a.toDfa order).automaton.Consistent where
  encodable := ha.encodable
  initial_mem := afterState_mem_states ha Alphabet.spells_nil
  accepting_mem s hs := (mem_accepting_toDfa.1 hs).1
  source_mem t ht := by
    obtain ⟨w, c, hw, -, rfl⟩ := (mem_transitions_toDfa ha).1 ht
    exact afterState_mem_states ha hw
  target_mem t ht := by
    obtain ⟨w, c, hw, hc, rfl⟩ := (mem_transitions_toDfa ha).1 ht
    exact afterState_mem_states ha (Alphabet.spells_append_singleton.2 ⟨hw, hc⟩)
  label_mem t ht := by
    obtain ⟨w, c, -, hc, rfl⟩ := (mem_transitions_toDfa ha).1 ht
    exact (Alphabet.admits_char _ c).2 hc

theorem deterministic_toDfa (ha : a.Consistent) (order : WorklistOrder) :
    (a.toDfa order).automaton.Deterministic := by
  refine deterministic_iff.2 ⟨?_, ?_⟩
  · intro t ht
    obtain ⟨w, c, -, -, rfl⟩ := (mem_transitions_toDfa ha).1 ht
    exact Symbol.noConfusion
  · intro s hs c hc
    obtain ⟨w, hw, rfl⟩ := (mem_states_toDfa ha).1 hs
    exact ⟨_, fun u => afterState_step_iff ha hw hc⟩

/-! ## Paths of the result -/

theorem leads_afterState_iff (ha : a.Consistent) (hv : a.alphabet.Spells v) :
    (a.toDfa order).automaton.Leads (a.afterState v) w t ↔
      a.alphabet.Spells w ∧ t = a.afterState (v ++ w) := by
  have hdet := deterministic_toDfa ha order
  induction w generalizing v with
  | nil =>
      rw [hdet.leads_nil_iff, List.append_nil, and_iff_right Alphabet.spells_nil]
      exact eq_comm
  | cons c w ih =>
      rw [hdet.leads_cons_iff, Alphabet.spells_cons]
      constructor
      · rintro ⟨u, hstep, hrest⟩
        have hc : c ∈ a.alphabet :=
          (Alphabet.admits_char _ c).1 ((consistent_toDfa ha order).label_mem _ hstep)
        rw [(afterState_step_iff ha hv hc).1 hstep] at hrest
        have hlonger := (ih (Alphabet.spells_append_singleton.2 ⟨hv, hc⟩)).1 hrest
        rw [List.append_assoc, List.singleton_append] at hlonger
        exact ⟨⟨hc, hlonger.1⟩, hlonger.2⟩
      · rintro ⟨⟨hc, hw⟩, rfl⟩
        have hlonger := ih (Alphabet.spells_append_singleton.2 ⟨hv, hc⟩)
        rw [List.append_assoc, List.singleton_append] at hlonger
        exact ⟨_, (afterState_step_iff ha hv hc).2 rfl, hlonger.2 ⟨hw, rfl⟩⟩

/-- **A word over the alphabet leads to the state after it, and to no other.** -/
theorem leads_toDfa_iff (ha : a.Consistent) :
    (a.toDfa order).automaton.Leads (a.toDfa order).automaton.initial w t ↔
      a.alphabet.Spells w ∧ t = a.afterState w :=
  leads_afterState_iff ha Alphabet.spells_nil

theorem reachable_of_mem_states_toDfa (ha : a.Consistent)
    (hs : s ∈ (a.toDfa order).automaton.states) : (a.toDfa order).automaton.Reachable s := by
  obtain ⟨w, hw, rfl⟩ := (mem_states_toDfa ha).1 hs
  exact ⟨w, (leads_toDfa_iff ha).2 ⟨hw, rfl⟩⟩

/-- The state after a word is accepting exactly when the word is accepted. -/
theorem afterState_mem_accepting_iff_accepts (ha : a.Consistent) (hw : a.alphabet.Spells w) :
    a.afterState w ∈ (a.toDfa order).automaton.accepting ↔ a.accepts w = true := by
  rw [afterState_mem_accepting ha hw, accepts_iff, and_iff_right hw]
  simp only [mem_after]

/-- **The result accepts the same words.** -/
theorem accepts_automaton_toDfa (ha : a.Consistent) (order : WorklistOrder) (w : List Char) :
    (a.toDfa order).automaton.accepts w = a.accepts w := by
  rw [Bool.eq_iff_iff, (consistent_toDfa ha order).accepts_iff_leads]
  simp only [leads_toDfa_iff ha]
  constructor
  · rintro ⟨t, ⟨hw, rfl⟩, hacc⟩
    exact (afterState_mem_accepting_iff_accepts ha hw).1 hacc
  · intro hacc
    have hw := (accepts_iff.1 hacc).1
    exact ⟨a.afterState w, ⟨hw, rfl⟩, (afterState_mem_accepting_iff_accepts ha hw).2 hacc⟩

/-! ## The construction as a whole -/

/-- **Determinizing keeps the accepted words.**  The machine that follows one state through a word
answers like the automaton that follows a set of states, for every automaton that can be built,
every worklist order and every word. -/
theorem accepts_toDfa {states : List State} {alphabet : Alphabet} {transitions : List Transition}
    {initial : State} {accepting : List State}
    (h : build states alphabet transitions initial accepting = .ok a) (order : WorklistOrder)
    (w : List Char) : (a.toDfa order).accepts w = a.accepts w := by
  have ha := consistent_of_build h
  rw [Dfa.accepts_eq_accepts (consistent_toDfa ha order) (deterministic_toDfa ha order)]
  exact accepts_automaton_toDfa ha order w

theorem accepts_toDfa_tangle :
    (tangle.toDfa .lifo).accepts ['a', 'b', 'a'] = tangle.accepts ['a', 'b', 'a'] ∧
      (tangle.toDfa .fifo).accepts ['a', 'ε'] = tangle.accepts ['a', 'ε'] :=
  ⟨accepts_toDfa build_tangle .lifo _, accepts_toDfa build_tangle .fifo _⟩

/-- The second automaton is the part of the powerset automaton of the first that words lead to. -/
structure IsAccessiblePowerset (a d : Automaton) : Prop where
  alphabet_eq : d.alphabet = a.alphabet
  mem_states : ∀ s, s ∈ d.states ↔ ∃ w, a.alphabet.Spells w ∧ s = .composite (a.after w)
  initial_eq : d.initial = .composite (a.after [])
  mem_transitions : ∀ t, t ∈ d.transitions ↔
    ∃ w c, a.alphabet.Spells w ∧ c ∈ a.alphabet ∧
      t = ⟨.composite (a.after w), .char c, .composite (a.after (w ++ [c]))⟩
  mem_accepting : ∀ s, s ∈ d.accepting ↔ s ∈ d.states ∧ ∃ m ∈ s.members, m ∈ a.accepting

/-- **The subset construction builds exactly the accessible powerset automaton.**  The set after a
word holds the ends of the paths that read it; these sets are the states; both worklist orders give
the same machine; and all its states are reachable, so pruning it changes nothing. -/
theorem isAccessiblePowerset_toDfa (ha : a.Consistent) :
    (∀ w t, t ∈ a.after w ↔ a.Leads a.initial w t) ∧
      (∀ order, IsAccessiblePowerset a (a.toDfa order).automaton) ∧
      a.toDfa .fifo = a.toDfa .lifo ∧
      ∀ order, (a.toDfa order).removeUnreachable = a.toDfa order := by
  refine ⟨fun w t => mem_after, fun order => ?_, toDfa_eq_toDfa ha .fifo .lifo, fun order => ?_⟩
  · refine ⟨rfl, fun s => mem_states_toDfa ha, rfl, fun t => mem_transitions_toDfa ha, fun s => ?_⟩
    rw [← isAcceptingSet_eq_true_iff]
    exact SortedSet.mem_filter
  · have hpruned := removeUnreachable_eq_self (consistent_toDfa ha order)
      fun s => reachable_of_mem_states_toDfa ha
    rw [Dfa.removeUnreachable, hpruned]

theorem isAccessiblePowerset_toDfa_tangle :
    tangle.Consistent ∧ IsAccessiblePowerset tangle (tangle.toDfa .lifo).automaton ∧
      tangle.toDfa .fifo = tangle.toDfa .lifo ∧
      (tangle.toDfa .lifo).removeUnreachable = tangle.toDfa .lifo :=
  have h := isAccessiblePowerset_toDfa (consistent_of_build build_tangle)
  ⟨consistent_of_build build_tangle, h.2.1 .lifo, h.2.2.1, h.2.2.2 .lifo⟩

end Automaton
end Determinization
