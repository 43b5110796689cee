import Determinization.Automaton.Basic
import Determinization.Proofs.Automaton.Path

/-!
# Consistent automata

`Automaton.build` answers with an automaton exactly when the parts it is given fit together, and
then the automaton has exactly these parts (`build_eq_ok_iff`).  So everything proved about
consistent automata holds of whatever can be built, and of what the transformations make of it.

In a consistent automaton paths stay among the declared states and read words over the alphabet
(`Leads.target_mem`, `Leads.spells`), which removes the alphabet from the description of the
accepted words (`Consistent.accepts_iff_leads`).
-/

namespace Determinization

namespace Relation

variable {states : SortedSet State} {alphabet : Alphabet} {t : Transition} {l : List Transition}
  {r : Relation}

theorem fault?_eq_none_iff :
    fault? states alphabet t = none ↔
      t.source ∈ states ∧ t.target ∈ states ∧ alphabet.admits t.label = true := by
  unfold fault?
  by_cases hsource : t.source ∈ states
  · by_cases htarget : t.target ∈ states
    · simp [hsource, htarget]
    · simp [hsource, htarget]
  · simp [hsource]

theorem build_eq_ok_iff :
    build states alphabet l = .ok r ↔
      (∀ t ∈ l, t.source ∈ states ∧ t.target ∈ states ∧ alphabet.admits t.label = true) ∧
        r = ofList l := by
  unfold build
  cases hfault : l.findSome? (fault? states alphabet) with
  | none =>
      have hall := List.findSome?_eq_none_iff.1 hfault
      simp only [fault?_eq_none_iff] at hall
      simp only [Except.ok.injEq]
      exact ⟨fun h => ⟨hall, h.symm⟩, fun h => h.2.symm⟩
  | some e =>
      obtain ⟨t, ht, he⟩ := List.exists_of_findSome?_eq_some hfault
      simp only [reduceCtorEq, false_iff, not_and]
      intro hall
      rw [fault?_eq_none_iff.2 (hall t ht)] at he
      cases he

end Relation

namespace Automaton

variable {a : Automaton} {states : List State} {alphabet : Alphabet}
  {transitions : List Transition} {initial : State} {accepting : List State}

/-- Automata with the same parts are equal. -/
theorem eq_of_parts_eq {a b : Automaton} (hstates : a.states = b.states)
    (halphabet : a.alphabet = b.alphabet) (htransitions : a.transitions = b.transitions)
    (hinitial : a.initial = b.initial) (haccepting : a.accepting = b.accepting) : a = b := by
  cases a
  cases b
  simp_all

/-- The automaton with the given parts, whether or not they fit together. -/
def ofParts (states : List State) (alphabet : Alphabet) (transitions : List Transition)
    (initial : State) (accepting : List State) : Automaton :=
  ⟨SortedSet.ofList states, alphabet, Relation.ofList transitions, initial,
    SortedSet.ofList accepting⟩

/-- **Building succeeds exactly on parts that fit together, and keeps them.** -/
theorem build_eq_ok_iff :
    build states alphabet transitions initial accepting = .ok a ↔
      (ofParts states alphabet transitions initial accepting).Consistent ∧
        a = ofParts states alphabet transitions initial accepting := by
  unfold build
  constructor
  · intro h
    -- the checks in their order; an error is not the automaton of `h`
    split at h
    · cases h
    · rename_i hencodable
      dsimp only at h
      split at h
      · cases h
      · rename_i hinitial
        split at h
        · cases h
        · rename_i haccepting
          split at h
          · cases h
          · rename_i r hr
            obtain ⟨htransitions, rfl⟩ := Relation.build_eq_ok_iff.1 hr
            refine ⟨⟨?_, ?_, ?_, ?_, ?_, ?_⟩, (Except.ok.inj h).symm⟩
            · intro c hc
              simpa using List.find?_eq_none.1 hencodable c hc
            · exact Decidable.of_not_not hinitial
            · intro s hs
              have hdeclared := List.find?_eq_none.1 haccepting s hs
              rw [decide_eq_true_iff, Decidable.not_not] at hdeclared
              exact hdeclared
            · intro t ht
              exact (htransitions t (Relation.mem_ofList.1 ht)).1
            · intro t ht
              exact (htransitions t (Relation.mem_ofList.1 ht)).2.1
            · intro t ht
              exact (htransitions t (Relation.mem_ofList.1 ht)).2.2
  · rintro ⟨h, rfl⟩
    have hencodable : (alphabet.toList.find? fun c => !Symbol.isEncodable c) = none := by
      refine List.find?_eq_none.2 fun c hc => ?_
      simp [h.encodable c hc]
    have haccepting : ((SortedSet.ofList accepting).toList.find? fun s =>
        decide (s ∉ SortedSet.ofList states)) = none := by
      refine List.find?_eq_none.2 fun s hs => ?_
      have hs' : s ∈ SortedSet.ofList states := h.accepting_mem s hs
      simpa using hs'
    have htransitions : Relation.build (SortedSet.ofList states) alphabet transitions =
        .ok (Relation.ofList transitions) := by
      refine Relation.build_eq_ok_iff.2 ⟨fun t ht => ?_, rfl⟩
      have ht' := Relation.mem_ofList.2 ht
      exact ⟨h.source_mem t ht', h.target_mem t ht', h.label_mem t ht'⟩
    have hinitial : initial ∈ SortedSet.ofList states := h.initial_mem
    simp only [hencodable, haccepting, htransitions, not_true_eq_false, hinitial, if_false]
    rfl

/-- What was built is consistent. -/
theorem consistent_of_build (h : build states alphabet transitions initial accepting = .ok a) :
    a.Consistent := by
  obtain ⟨hconsistent, rfl⟩ := build_eq_ok_iff.1 h
  exact hconsistent

/-- An automaton with a silent cycle through the empty composite state, which is also a member of
another state. -/
def tangle : Automaton :=
  ofParts [.simple 0, .dead, .ofMembers [.simple 3, .dead]] (SortedSet.ofList ['b', 'a'])
    [⟨.simple 0, .epsilon, .dead⟩, ⟨.dead, .epsilon, .simple 0⟩,
      ⟨.dead, .char 'a', .ofMembers [.simple 3, .dead]⟩,
      ⟨.ofMembers [.simple 3, .dead], .char 'b', .simple 0⟩]
    (.simple 0) [.ofMembers [.simple 3, .dead]]

theorem build_tangle :
    build [.simple 0, .dead, .ofMembers [.simple 3, .dead]] (SortedSet.ofList ['b', 'a'])
      [⟨.simple 0, .epsilon, .dead⟩, ⟨.dead, .epsilon, .simple 0⟩,
        ⟨.dead, .char 'a', .ofMembers [.simple 3, .dead]⟩,
        ⟨.ofMembers [.simple 3, .dead], .char 'b', .simple 0⟩]
      (.simple 0) [.ofMembers [.simple 3, .dead]] = .ok tangle := rfl

/-! ## Paths of consistent automata -/

variable {s t : State} {w : List Char}

/-- Paths that start at a declared state end at one. -/
theorem Leads.target_mem (ha : a.Consistent) (h : a.Leads s w t) (hs : s ∈ a.states) :
    t ∈ a.states := by
  induction h with
  | stay s => exact hs
  | silent step _ ih => exact ih (ha.target_mem _ step)
  | read step _ ih => exact ih (ha.target_mem _ step)

/-- Paths read words over the alphabet. -/
theorem Leads.spells (ha : a.Consistent) (h : a.Leads s w t) : a.alphabet.Spells w := by
  induction h with
  | stay s => exact Alphabet.spells_nil
  | silent _ _ ih => exact ih
  | @read s t u c w step _ ih =>
      have hc : c ∈ a.alphabet := (Alphabet.admits_char a.alphabet c).1 (ha.label_mem _ step)
      exact Alphabet.spells_cons.2 ⟨hc, ih⟩

/-- Words lead to declared states only. -/
theorem Consistent.mem_states_of_mem_after (ha : a.Consistent) (h : t ∈ a.after w) :
    t ∈ a.states :=
  (mem_after.1 h).target_mem ha ha.initial_mem

/-- **The accepted words are those that a path from the initial state to an accepting state
reads.** -/
theorem Consistent.accepts_iff_leads (ha : a.Consistent) :
    a.accepts w = true ↔ ∃ t, a.Leads a.initial w t ∧ t ∈ a.accepting := by
  rw [accepts_iff, and_iff_right_iff_imp]
  rintro ⟨t, ht, -⟩
  exact ht.spells ha

end Automaton
end Determinization
