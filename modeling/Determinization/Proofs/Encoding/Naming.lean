import Determinization.Proofs.Automaton.Isomorphism
import Determinization.Proofs.Encoding.Conversion
import Determinization.Proofs.Encoding.Derivation

/-!
# Names and notation do not matter

What a text is converted to does not depend on how the states of its automaton are named, on states
that are not reachable, or on how the text lists its entries.

The canonical form of an automaton that is not deterministic does depend on names, since they decide
in which order several targets on one symbol are visited.  But conversion determinizes first, and
automata that are alike have the same numbered deterministic automaton.  So each of the three
differences only has to keep automata alike (`convertAlike_of_alike`): isomorphic automata are, an
automaton and its pruned form are, and so are the automata of encodings with the same entries, which
are the same up to the order of their transitions (`SameEntries.exists_toAutomaton_same`).
-/

namespace Determinization

open Encoding.Grammar

/-! ## Encodings with the same entries -/

namespace Automaton

variable {a b : Automaton} {states states' : List State} {alphabet : Alphabet}
  {transitions transitions' : List Transition} {initial : State} {accepting accepting' : List State}

/-- Parts with the same members make the same automaton. -/
theorem ofParts_same (hstates : ∀ s, s ∈ states ↔ s ∈ states')
    (htransitions : ∀ t, t ∈ transitions ↔ t ∈ transitions')
    (haccepting : ∀ s, s ∈ accepting ↔ s ∈ accepting') :
    (ofParts states alphabet transitions initial accepting).same
      (ofParts states' alphabet transitions' initial accepting') = true := by
  refine same_iff.2 ⟨SortedSet.ofList_eq_ofList.2 hstates, rfl, fun t => ?_, rfl,
    SortedSet.ofList_eq_ofList.2 haccepting⟩
  simp only [ofParts, Relation.mem_ofList, htransitions]

/-- What is the same is consistent too. -/
theorem Consistent.of_same (ha : a.Consistent) (h : a.same b = true) : b.Consistent := by
  obtain ⟨hstates, halphabet, htransitions, hinitial, haccepting⟩ := same_iff.1 h
  constructor
  · rw [← halphabet]
    exact ha.encodable
  · rw [← hstates, ← hinitial]
    exact ha.initial_mem
  · rw [← hstates, ← haccepting]
    exact ha.accepting_mem
  · intro t ht
    rw [← hstates]
    exact ha.source_mem t ((htransitions t).2 ht)
  · intro t ht
    rw [← hstates]
    exact ha.target_mem t ((htransitions t).2 ht)
  · intro t ht
    rw [← halphabet]
    exact ha.label_mem t ((htransitions t).2 ht)

end Automaton

namespace Encoding

variable {e e' : Encoding} {a : Automaton}

/-- The encodings have the same entries, in whatever order and however often. -/
structure SameEntries (e e' : Encoding) : Prop where
  mem_states : ∀ n, n ∈ e.states ↔ n ∈ e'.states
  mem_alphabet : ∀ c, c ∈ e.alphabet ↔ c ∈ e'.alphabet
  mem_transitions : ∀ t, t ∈ e.transitions ↔ t ∈ e'.transitions
  initial_eq : e.initial = e'.initial
  mem_accepting : ∀ n, n ∈ e.accepting ↔ n ∈ e'.accepting

theorem sameEntries_iff :
    SameEntries e e' ↔ SortedSet.ofList e.states = SortedSet.ofList e'.states ∧
      SortedSet.ofList e.alphabet = SortedSet.ofList e'.alphabet ∧
      SortedSet.ofList e.transitions = SortedSet.ofList e'.transitions ∧
      e.initial = e'.initial ∧ SortedSet.ofList e.accepting = SortedSet.ofList e'.accepting := by
  simp only [SortedSet.ofList_eq_ofList]
  constructor
  · intro h
    exact ⟨h.mem_states, h.mem_alphabet, h.mem_transitions, h.initial_eq, h.mem_accepting⟩
  · rintro ⟨hstates, halphabet, htransitions, hinitial, haccepting⟩
    exact ⟨hstates, halphabet, htransitions, hinitial, haccepting⟩

instance (e e' : Encoding) : Decidable (SameEntries e e') :=
  decidable_of_iff _ sameEntries_iff.symm

/-- The automaton with the written parts, whether or not they fit together. -/
def parts (e : Encoding) : Automaton :=
  .ofParts (e.states.map State.simple) (SortedSet.ofList e.alphabet)
    (e.transitions.map (Edge.map State.simple)) (.simple e.initial)
    (e.accepting.map State.simple)

theorem toAutomaton_eq_ok_iff : e.toAutomaton = .ok a ↔ e.parts.Consistent ∧ a = e.parts :=
  Automaton.build_eq_ok_iff

namespace SameEntries

theorem same_parts (h : SameEntries e e') : e.parts.same e'.parts = true := by
  rw [parts, parts, h.initial_eq, SortedSet.ofList_eq_ofList.2 h.mem_alphabet]
  refine Automaton.ofParts_same (fun s => ?_) (fun t => ?_) fun s => ?_
  · simp only [List.mem_map, h.mem_states]
  · simp only [List.mem_map, h.mem_transitions]
  · simp only [List.mem_map, h.mem_accepting]

/-- **Encodings with the same entries are encodings of the same automaton.** -/
theorem exists_toAutomaton_same (h : SameEntries e e') (he : e.toAutomaton = .ok a) :
    ∃ b, e'.toAutomaton = .ok b ∧ a.same b = true := by
  obtain ⟨hcons, rfl⟩ := toAutomaton_eq_ok_iff.1 he
  have hsame := h.same_parts
  exact ⟨e'.parts, toAutomaton_eq_ok_iff.2 ⟨hcons.of_same hsame, rfl⟩, hsame⟩

end SameEntries

end Encoding

namespace Automaton

variable {t t' : List Char} {a b : Automaton}

/-! ## Conversion -/

/-- Both texts are converted, and to the same result. -/
def ConvertAlike (t t' : List Char) : Prop :=
  ∃ result, convert t = .ok result ∧ convert t' = .ok result

/-- **Automata that are alike are converted to the same result.** -/
theorem convertAlike_of_alike (ht : parse t = .ok a) (ht' : parse t' = .ok b) (h : Alike a b) :
    ConvertAlike t t' := by
  have heq : a.standard = b.standard := congrArg Dfa.automaton
    (h.canonicalize_toDfa_eq (consistent_of_parse ht) (consistent_of_parse ht') .fifo .fifo)
  refine ⟨a.standard.encode, convert_of_parse ht, ?_⟩
  rw [convert_of_parse ht', heq]

theorem parse_of_isTextOf {e : Encoding} (h : IsTextOf t e) : parse t = e.toAutomaton := by
  rw [parse, Encoding.read_of_isTextOf h]

/-- Automata with the same reachable part are alike. -/
theorem alike_of_same_removeUnreachable
    (h : a.removeUnreachable.same b.removeUnreachable = true) : Alike a b :=
  have ha := (isImage_removeUnreachable a).alike tellsApart_id
  have hb := (isImage_removeUnreachable b).alike tellsApart_id
  (ha.trans (renaming_of_same h).alike).trans hb.symm

/-- **Conversion depends neither on names nor on notation.**  Two texts are converted to the same
result

* when their automata have the same alphabet and are isomorphic as far as they are reachable;
* when their automata differ in unreachable states only;
* when one of them can be read, and the other has the same entries, whatever the order, the
  repetitions and the blanks.

No bound on the number of states is needed for this. -/
theorem convert_ignores_names :
    (∀ {t t' : List Char} {a b : Automaton} {f : State → State}, parse t = .ok a →
        parse t' = .ok b → a.alphabet = b.alphabet → Isomorphism f a b → ConvertAlike t t') ∧
      (∀ {t t' : List Char} {a b : Automaton}, parse t = .ok a → parse t' = .ok b →
        a.removeUnreachable.same b.removeUnreachable = true → ConvertAlike t t') ∧
      ∀ {t t' : List Char} {e e' : Encoding} {a : Automaton}, IsTextOf t e → IsTextOf t' e' →
        e.SameEntries e' → parse t = .ok a → ConvertAlike t t' := by
  refine ⟨?_, ?_, ?_⟩
  · intro t t' a b f ht ht' halphabet hf
    exact convertAlike_of_alike ht ht' (hf.renaming halphabet).alike
  · intro t t' a b ht ht' h
    exact convertAlike_of_alike ht ht' (alike_of_same_removeUnreachable h)
  · intro t t' e e' a ht ht' hentries hparse
    have he : e.toAutomaton = .ok a := (parse_of_isTextOf ht).symm.trans hparse
    obtain ⟨b, hb, hsame⟩ := hentries.exists_toAutomaton_same he
    have hparse' : parse t' = .ok b := (parse_of_isTextOf ht').trans hb
    exact convertAlike_of_alike hparse hparse' (renaming_of_same hsame).alike

/-- The automaton for the words that end in `a`, under other names and with a state to spare. -/
def lastLetterRenamed : Automaton :=
  ofParts [.simple 3, .simple 5, .simple 7, .simple 9] (SortedSet.ofList ['a', 'b'])
    [⟨.simple 7, .char 'a', .simple 7⟩, ⟨.simple 9, .char 'b', .simple 7⟩,
      ⟨.simple 7, .char 'a', .simple 5⟩, ⟨.simple 7, .char 'b', .simple 7⟩,
      ⟨.simple 5, .epsilon, .simple 3⟩, ⟨.simple 9, .epsilon, .simple 3⟩] (.simple 7)
    [.simple 3, .simple 9]

/-- The other names, which reverse the order of the states. -/
def lastLetterName (s : State) : State :=
  if s = .simple 0 then .simple 7 else if s = .simple 1 then .simple 5 else .simple 3

/-- The entries under the other names, without the state to spare. -/
def lastLetterEntries : Encoding where
  states := [3, 5, 7]
  alphabet := ['a', 'b']
  transitions := [⟨7, .char 'a', 7⟩, ⟨7, .char 'a', 5⟩, ⟨7, .char 'b', 7⟩, ⟨5, .epsilon, 3⟩]
  initial := 7
  accepting := [3]

/-- The same entries in another order, some of them more than once. -/
def lastLetterRepeated : Encoding where
  states := [7, 5, 3, 7]
  alphabet := ['b', 'a', 'b']
  transitions := [⟨5, .epsilon, 3⟩, ⟨7, .char 'b', 7⟩, ⟨7, .char 'a', 5⟩, ⟨7, .char 'b', 7⟩,
    ⟨7, .char 'a', 7⟩]
  initial := 7
  accepting := [3, 3]

theorem parse_lastLetterRenamed :
    parse "3 5 7 9/a b/7,a,7;9,b,7;7,a,5;7,b,7;5,,3;9,,3/7/3 9".toList = .ok lastLetterRenamed := by
  cbv

theorem isomorphism_lastLetterRenamed :
    Isomorphism lastLetterName lastLetter lastLetterRenamed := by
  decide +kernel

theorem read_lastLetterEntries :
    Encoding.read "3 5 7/a b/7,a,7;7,a,5;7,b,7;5,,3/7/3".toList = .ok lastLetterEntries := by
  cbv

theorem read_lastLetterRepeated :
    Encoding.read " 7 5 03 7/b a\tb / 5 , , 3 ; 7,b,7;7,a,5;7,b,7 ;7,a, 7; /007/3  3".toList =
      .ok lastLetterRepeated := by
  cbv

theorem parse_lastLetterEntries :
    parse "3 5 7/a b/7,a,7;7,a,5;7,b,7;5,,3/7/3".toList = .ok lastLetterEntries.parts := by
  cbv

theorem same_removeUnreachable_lastLetterRenamed :
    lastLetterRenamed.removeUnreachable.same lastLetterEntries.parts.removeUnreachable = true := by
  decide +kernel

theorem sameEntries_lastLetterRepeated : lastLetterEntries.SameEntries lastLetterRepeated := by
  decide +kernel

theorem convert_ignores_names_lastLetter :
    ConvertAlike "0 1 2 / b a / 0,a,0; 0,b,0; 0,a,1; 1,,2 / 0 / 2".toList
        "3 5 7 9/a b/7,a,7;9,b,7;7,a,5;7,b,7;5,,3;9,,3/7/3 9".toList ∧
      ConvertAlike "3 5 7 9/a b/7,a,7;9,b,7;7,a,5;7,b,7;5,,3;9,,3/7/3 9".toList
        "3 5 7/a b/7,a,7;7,a,5;7,b,7;5,,3/7/3".toList ∧
      ConvertAlike "3 5 7/a b/7,a,7;7,a,5;7,b,7;5,,3/7/3".toList
        " 7 5 03 7/b a\tb / 5 , , 3 ; 7,b,7;7,a,5;7,b,7 ;7,a, 7; /007/3  3".toList :=
  ⟨convert_ignores_names.1 parse_lastLetter parse_lastLetterRenamed rfl
      isomorphism_lastLetterRenamed,
    convert_ignores_names.2.1 parse_lastLetterRenamed parse_lastLetterEntries
      same_removeUnreachable_lastLetterRenamed,
    convert_ignores_names.2.2 (Encoding.isTextOf_of_read read_lastLetterEntries)
      (Encoding.isTextOf_of_read read_lastLetterRepeated) sameEntries_lastLetterRepeated
      parse_lastLetterEntries⟩

end Automaton
end Determinization
