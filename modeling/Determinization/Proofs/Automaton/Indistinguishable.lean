import Determinization.Document
import Determinization.Drawing
import Determinization.Proofs.Encoding.Naming
import Determinization.SetNotation

/-!
# Equal automata cannot be told apart

Two automata count as the same when they have the same parts (`Automaton.same`), but they keep their
transitions in the order in which these were given, and all that is computed from them goes through
that list.  The order must not show in any result.

Because there are no repetitions, the lists of two relations with the same transitions are
permutations of each other (`Relation.perm_of_same`), and so are the lists that are cut out of them,
the targets on a symbol and the moves from a state.  From there the results fall into three kinds.

* What is a set is told apart by its members: closures, moves, reachable states.  The subset
  construction is made of these, so it comes out as the same value, and so do the sorted listings
  that are written and drawn.
* Canonical numbering hands out numbers while it goes through the list.  But it sorts the targets on
  each symbol first, so it makes the very same search (`canonicalSearch_eq_of_same`).
* The check for determinism looks for the first transition on the empty word in the order in which
  they were given.  Here the order does show: which of them is found may differ, but not whether one
  is found (`determinismFault?_of_same`).

`Indistinguishable` collects all of this.
-/

namespace Determinization

namespace Relation

variable {r r' : Relation} (h : r.same r' = true)

include h

/-- **Relations that are the same list the same transitions in another order.** -/
theorem perm_of_same : r.toList.Perm r'.toList := perm_of_mem_iff (same_iff.1 h)

theorem size_eq_of_same : r.size = r'.size := (perm_of_same h).length_eq

theorem targets_perm (s : State) (x : Symbol) : (r.targets s x).Perm (r'.targets s x) :=
  ((perm_of_same h).filter _).map _

theorem outgoing_perm (s : State) : (r.outgoing s).Perm (r'.outgoing s) :=
  ((perm_of_same h).filter _).map _

theorem sorted_eq_of_same : r.sorted = r'.sorted := SortedSet.ofList_eq_ofList.2 (same_iff.1 h)

end Relation

namespace Automaton

section Same

variable {a b : Automaton} (h : a.same b = true)

include h

theorem transitions_same : a.transitions.same b.transitions = true :=
  Relation.same_iff.2 (same_iff.1 h).2.2.1

/-! ## Sets of states -/

theorem closure_eq_of_same {seeds seeds' : List State} (hseeds : ∀ s, s ∈ seeds ↔ s ∈ seeds') :
    a.closure seeds = b.closure seeds' := by
  have hsilent : a.Silent = b.Silent := by
    funext s t
    exact propext ((same_iff.1 h).2.2.1 _)
  refine SortedSet.ext fun t => ?_
  simp only [mem_closure, hseeds, hsilent]

theorem move_eq_of_same : a.move = b.move := by
  funext sources c
  refine closure_eq_of_same h fun t => ?_
  have hmem : ∀ s, t ∈ a.transitions.targets s (.char c) ↔ t ∈ b.transitions.targets s (.char c) :=
    fun s => (Relation.targets_perm (transitions_same h) s _).mem_iff
  simp only [List.mem_flatMap, hmem]

theorem reachable_eq_of_same : a.reachable = b.reachable := by
  refine SortedSet.ext fun s => ?_
  rw [mem_reachable, mem_reachable]
  exact (renaming_of_same h).reachable_iff rfl

/-! ## Transformations -/

/-- **The subset construction makes the same automaton of automata that are the same.** -/
theorem toDfa_eq_of_same (order : WorklistOrder) : a.toDfa order = b.toDfa order := by
  obtain ⟨hstates, halphabet, -, hinitial, haccepting⟩ := same_iff.1 h
  have hsuccessor : a.successorSet = b.successorSet := by
    funext s c
    rw [successorSet, successorSet, move_eq_of_same h]
  have hclosure : a.closure [a.initial] = b.closure [b.initial] :=
    closure_eq_of_same h fun s => by rw [hinitial]
  have hsearch : a.subsetSearch order = b.subsetSearch order := by
    rw [subsetSearch, subsetSearch, hsuccessor, hclosure, hstates, halphabet]
  have haccepts : a.isAccepting = b.isAccepting := by
    funext s
    rw [isAccepting, isAccepting, haccepting]
  have hfinal : a.isAcceptingSet = b.isAcceptingSet := by
    funext l
    rw [isAcceptingSet, isAcceptingSet, haccepts]
  rw [toDfa, toDfa, hsearch, hsuccessor, hclosure, halphabet, hfinal]

theorem orderedMoves_eq_of_same : a.orderedMoves = b.orderedMoves := by
  obtain ⟨-, halphabet, -, -, -⟩ := same_iff.1 h
  have htargets : a.orderedTargets = b.orderedTargets := by
    funext s x
    refine congrArg SortedSet.toList (SortedSet.ofList_eq_ofList.2 fun t => ?_)
    exact (Relation.targets_perm (transitions_same h) s x).mem_iff
  funext s
  rw [orderedMoves_eq_flatMap, orderedMoves_eq_flatMap, halphabet, htargets]

/-- The search that hands out the numbers sorts before it goes on, so it takes the same way. -/
theorem canonicalSearch_eq_of_same : a.canonicalSearch = b.canonicalSearch := by
  obtain ⟨-, -, -, hinitial, -⟩ := same_iff.1 h
  rw [canonicalSearch, canonicalSearch, orderedMoves_eq_of_same h, hinitial,
    Relation.size_eq_of_same (transitions_same h)]

/-- **Automata that are the same have the same canonical form**, deterministic or not. -/
theorem canonicalize_eq_of_same : a.canonicalize = b.canonicalize := by
  obtain ⟨-, halphabet, -, -, haccepting⟩ := same_iff.1 h
  rw [canonicalize, canonicalize, canonicalSearch_eq_of_same h, orderedMoves_eq_of_same h,
    halphabet, haccepting]

theorem removeUnreachable_same_of_same :
    a.removeUnreachable.same b.removeUnreachable = true := by
  obtain ⟨-, halphabet, htransitions, hinitial, haccepting⟩ := same_iff.1 h
  have hkept := reachable_eq_of_same h
  refine same_iff.2 ⟨hkept, halphabet, fun t => ?_, hinitial, ?_⟩
  · rw [removeUnreachable, removeUnreachable, Relation.mem_filter, Relation.mem_filter, hkept,
      htransitions]
  · rw [removeUnreachable, removeUnreachable, hkept, haccepting]

/-! ## The check for determinism -/

/-- **The faults agree, except that both may be transitions on the empty word.** -/
theorem determinismFault?_of_same :
    a.determinismFault? = b.determinismFault? ∨
      ∃ t ∈ a.transitions, ∃ u ∈ b.transitions, t.label = .epsilon ∧ u.label = .epsilon ∧
        a.determinismFault? = some (.undeclaredSymbol t) ∧
          b.determinismFault? = some (.undeclaredSymbol u) := by
  obtain ⟨hstates, halphabet, htransitions, -, -⟩ := same_iff.1 h
  have htarget : a.targetFault? = b.targetFault? := by
    funext s c
    have hcount := (Relation.targets_perm (transitions_same h) s (.char c)).length_eq
    simp only [targetFault?, hcount]
  rcases hfind : a.transitions.toList.find? fun t => t.label.isEpsilon with _ | t
  · left
    have hnone : (b.transitions.toList.find? fun t => t.label.isEpsilon) = none := by
      rw [List.find?_eq_none] at hfind ⊢
      exact fun t ht => hfind t ((htransitions t).2 ht)
    rw [determinismFault?, determinismFault?, hfind, hnone, htarget, hstates, halphabet]
  · right
    have hmem : t ∈ a.transitions := List.mem_of_find?_eq_some hfind
    have ht := List.find?_some hfind
    have hsome : (b.transitions.toList.find? fun t => t.label.isEpsilon).isSome = true :=
      List.find?_isSome.2 ⟨t, (htransitions t).1 hmem, ht⟩
    obtain ⟨u, hfind'⟩ := Option.isSome_iff_exists.1 hsome
    have hmem' : u ∈ b.transitions := List.mem_of_find?_eq_some hfind'
    have hu := List.find?_some hfind'
    refine ⟨t, hmem, u, hmem', Symbol.isEpsilon_iff.1 ht, Symbol.isEpsilon_iff.1 hu, ?_, ?_⟩
    · rw [determinismFault?, hfind]
    · rw [determinismFault?, hfind']

theorem exists_ofAutomaton_of_same {d : Dfa} (hd : Dfa.ofAutomaton a = .ok d) :
    ∃ e, Dfa.ofAutomaton b = .ok e := by
  obtain ⟨hdet, -⟩ := Dfa.ofAutomaton_eq_ok_iff.1 hd
  have hnone : a.determinismFault? = none := determinismFault?_eq_none_iff.2 hdet
  rcases determinismFault?_of_same h with heq | ⟨t, -, u, -, -, -, hfault, -⟩
  · rw [hnone] at heq
    exact ⟨⟨b⟩, Dfa.ofAutomaton_eq_ok_iff.2 ⟨determinismFault?_eq_none_iff.1 heq.symm, rfl⟩⟩
  · rw [hnone] at hfault
    cases hfault

/-- The errors agree, except that both may name transitions on the empty word. -/
theorem ofAutomaton_error_of_same {e e' : Error} (he : Dfa.ofAutomaton a = .error e)
    (he' : Dfa.ofAutomaton b = .error e') :
    e = e' ∨ ∃ t ∈ a.transitions, ∃ u ∈ b.transitions, t.label = .epsilon ∧ u.label = .epsilon ∧
      e = .undeclaredSymbol t ∧ e' = .undeclaredSymbol u := by
  have hfault := Dfa.ofAutomaton_eq_error_iff.1 he
  have hfault' := Dfa.ofAutomaton_eq_error_iff.1 he'
  rcases determinismFault?_of_same h with heq | ⟨t, ht, u, hu, htlabel, hulabel, heqt, hequ⟩
  · left
    rw [hfault, hfault'] at heq
    exact Option.some.inj heq
  · right
    rw [hfault] at heqt
    rw [hfault'] at hequ
    exact ⟨t, ht, u, hu, htlabel, hulabel, Option.some.inj heqt, Option.some.inj hequ⟩

/-! ## What is put out -/

theorem setNotationWith_eq_of_same : a.setNotationWith = b.setNotationWith := by
  obtain ⟨hstates, halphabet, -, hinitial, haccepting⟩ := same_iff.1 h
  funext name
  rw [setNotationWith, setNotationWith, hstates, halphabet, hinitial, haccepting,
    Relation.sorted_eq_of_same (transitions_same h)]

theorem drawing_eq_of_same : a.drawing = b.drawing := by
  obtain ⟨hstates, -, -, hinitial, haccepting⟩ := same_iff.1 h
  have hname : a.nodeName = b.nodeName := by
    funext s
    rw [nodeName, nodeName, hstates]
  rw [drawing, drawing, drawingOf, drawingOf, hname, hstates, hinitial, haccepting,
    Relation.sorted_eq_of_same (transitions_same h)]

theorem document_eq_of_same : a.document = b.document := by
  obtain ⟨hstates, halphabet, -, hinitial, haccepting⟩ := same_iff.1 h
  rw [document, document, hstates, halphabet, hinitial, haccepting,
    Relation.sorted_eq_of_same (transitions_same h)]

end Same

/-! ## Everything together -/

/-- Nothing that can be asked of the automata or be made of them tells them apart, except which
transition on the empty word is named when they are not deterministic. -/
structure Indistinguishable (a b : Automaton) : Prop where
  accepts_eq : ∀ w, a.accepts w = b.accepts w
  targets_perm : ∀ s x, (a.transitions.targets s x).Perm (b.transitions.targets s x)
  outgoing_perm : ∀ s, (a.transitions.outgoing s).Perm (b.transitions.outgoing s)
  closure_eq : ∀ seeds seeds', (∀ s, s ∈ seeds ↔ s ∈ seeds') → a.closure seeds = b.closure seeds'
  reachable_eq : a.reachable = b.reachable
  toDfa_eq : ∀ order, a.toDfa order = b.toDfa order
  canonicalize_eq : a.canonicalize = b.canonicalize
  removeUnreachable_same : a.removeUnreachable.same b.removeUnreachable = true
  encode_eq : a.encode = b.encode
  setNotationWith_eq : ∀ name, a.setNotationWith name = b.setNotationWith name
  drawing_eq : a.drawing = b.drawing
  document_eq : a.document = b.document
  ofAutomaton_iff : (∃ d, Dfa.ofAutomaton a = .ok d) ↔ ∃ d, Dfa.ofAutomaton b = .ok d
  error_eq : ∀ e e', Dfa.ofAutomaton a = .error e → Dfa.ofAutomaton b = .error e' → e = e' ∨
    ∃ t ∈ a.transitions, ∃ u ∈ b.transitions, t.label = .epsilon ∧ u.label = .epsilon ∧
      e = .undeclaredSymbol t ∧ e' = .undeclaredSymbol u

/-- **Automata that are the same cannot be told apart.**  The same automata are built from the same
parts, in whatever order these are given and however often they are repeated. -/
theorem indistinguishable_of_same :
    (∀ {a b : Automaton}, a.same b = true → Indistinguishable a b) ∧
      ∀ {states states' : List State} {characters characters' : List Char}
        {transitions transitions' : List Transition} {initial : State}
        {accepting accepting' : List State} {a : Automaton},
        (∀ s, s ∈ states ↔ s ∈ states') → (∀ c, c ∈ characters ↔ c ∈ characters') →
        (∀ t, t ∈ transitions ↔ t ∈ transitions') → (∀ s, s ∈ accepting ↔ s ∈ accepting') →
        build states (SortedSet.ofList characters) transitions initial accepting = .ok a →
        ∃ b, build states' (SortedSet.ofList characters') transitions' initial accepting' = .ok b ∧
          a.same b = true := by
  constructor
  · intro a b h
    exact
      { accepts_eq := (renaming_of_same h).accepts_eq
        targets_perm := Relation.targets_perm (transitions_same h)
        outgoing_perm := Relation.outgoing_perm (transitions_same h)
        closure_eq := fun _ _ hseeds => closure_eq_of_same h hseeds
        reachable_eq := reachable_eq_of_same h
        toDfa_eq := toDfa_eq_of_same h
        canonicalize_eq := canonicalize_eq_of_same h
        removeUnreachable_same := removeUnreachable_same_of_same h
        encode_eq := encode_eq_of_same h
        setNotationWith_eq := congrFun (setNotationWith_eq_of_same h)
        drawing_eq := drawing_eq_of_same h
        document_eq := document_eq_of_same h
        ofAutomaton_iff := ⟨fun ⟨_, hd⟩ => exists_ofAutomaton_of_same h hd,
          fun ⟨_, hd⟩ => exists_ofAutomaton_of_same (same_symm h) hd⟩
        error_eq := fun _ _ he he' => ofAutomaton_error_of_same h he he' }
  · intro states states' characters characters' transitions transitions' initial accepting
      accepting' a hstates hcharacters htransitions haccepting hbuild
    obtain ⟨hcons, rfl⟩ := build_eq_ok_iff.1 hbuild
    rw [SortedSet.ofList_eq_ofList.2 hcharacters] at hcons ⊢
    have hsame : (ofParts states (SortedSet.ofList characters') transitions initial accepting).same
        (ofParts states' (SortedSet.ofList characters') transitions' initial accepting') = true :=
      ofParts_same hstates htransitions haccepting
    exact ⟨_, build_eq_ok_iff.2 ⟨hcons.of_same hsame, rfl⟩, hsame⟩

/-- The transitions of the example from the last to the first, one of them twice. -/
def shuffledTransitions : List Transition :=
  [⟨.ofMembers [.dead, .simple 3], .char 'b', .simple 0⟩,
    ⟨.dead, .char 'a', .ofMembers [.simple 3, .dead]⟩, ⟨.dead, .epsilon, .simple 0⟩,
    ⟨.dead, .char 'a', .ofMembers [.simple 3, .dead]⟩, ⟨.simple 0, .epsilon, .dead⟩]

theorem indistinguishable_of_same_tangle :
    ∃ b, build [.ofMembers [.simple 3, .dead], .dead, .simple 0, .dead]
        (SortedSet.ofList ['a', 'b', 'a']) shuffledTransitions (.simple 0)
        [.ofMembers [.dead, .simple 3], .ofMembers [.simple 3, .dead]] = .ok b ∧
      tangle.same b = true ∧ Indistinguishable tangle b := by
  have hbuild : ∃ b, build [.ofMembers [.simple 3, .dead], .dead, .simple 0, .dead]
      (SortedSet.ofList ['a', 'b', 'a']) shuffledTransitions (.simple 0)
      [.ofMembers [.dead, .simple 3], .ofMembers [.simple 3, .dead]] = .ok b ∧
        tangle.same b = true :=
    indistinguishable_of_same.2 (SortedSet.ofList_eq_ofList.1 (by decide +kernel))
      (SortedSet.ofList_eq_ofList.1 (by decide +kernel))
      (SortedSet.ofList_eq_ofList.1 (by decide +kernel))
      (SortedSet.ofList_eq_ofList.1 (by decide +kernel)) build_tangle
  obtain ⟨b, hb, hsame⟩ := hbuild
  exact ⟨b, hb, hsame, indistinguishable_of_same.1 hsame⟩

end Automaton
end Determinization
