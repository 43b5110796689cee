import Determinization.Proofs.Automaton.Isomorphism
import Determinization.Proofs.Automaton.Numbering
import Determinization.Proofs.Encoding.RoundTrip

/-!
# Automata read back from what they are written as

A consistent automaton can be written and read back (`parse_encode`).  What is read is not the same
automaton in general: numbers stand in place of composite states.  It is the image of the automaton
under these numbers (`isImage_written`), which tell the states apart as long as there are not more
states than 32-bit numbers (`tellsApart_writtenName`).

An automaton whose states are all numbered keeps its states (`writtenName_of_isNumbered`), so it
comes back as it was (`same_written_of_isNumbered`); only the order in which its transitions were
given is lost.  Hence numbered automata with equal written forms are the same
(`encode_eq_encode_iff`).
-/

namespace Determinization
namespace Automaton

variable {a b : Automaton} {text : List Char} {s : State}

/-- The state that is read where the state was written. -/
def writtenName (a : Automaton) (s : State) : State := State.simple (a.writtenId s)

/-- The automaton that is read from the written form. -/
def written (a : Automaton) : Automaton :=
  ofParts (a.states.toList.map a.writtenName) a.alphabet
    (a.transitions.sorted.toList.map (Edge.map a.writtenName)) (a.writtenName a.initial)
    (a.accepting.toList.map a.writtenName)

/-- **What is read back consists of the names of all states.** -/
theorem isImage_written (ha : a.Consistent) :
    IsImage (· ∈ a.states) a.writtenName a a.written where
  alphabet_eq := rfl
  part_initial := ha.initial_mem
  part_target _ hstep := ha.target_mem _ hstep
  initial_eq := rfl
  mem_states := by
    intro t
    rw [written, ofParts, SortedSet.mem_ofList, List.mem_map]
    constructor
    · rintro ⟨s, hs, rfl⟩
      exact ⟨s, hs, rfl⟩
    · rintro ⟨s, hs, rfl⟩
      exact ⟨s, hs, rfl⟩
  mem_transitions := by
    intro t
    rw [written, ofParts, Relation.mem_ofList, List.mem_map]
    simp only [SortedSet.mem_toList, Relation.sorted, SortedSet.mem_ofList, Relation.mem_toList]
    constructor
    · rintro ⟨⟨s, x, u⟩, hstep, rfl⟩
      exact ⟨s, x, u, ha.source_mem _ hstep, hstep, rfl⟩
    · rintro ⟨s, x, u, -, hstep, rfl⟩
      exact ⟨⟨s, x, u⟩, hstep, rfl⟩
  mem_accepting := by
    intro t
    rw [written, ofParts, SortedSet.mem_ofList, List.mem_map]
    constructor
    · rintro ⟨s, hacc, rfl⟩
      exact ⟨s, ha.accepting_mem s hacc, hacc, rfl⟩
    · rintro ⟨s, -, hacc, rfl⟩
      exact ⟨s, hacc, rfl⟩

/-! ## Reading back -/

theorem writable_toEncoding (ha : a.Consistent) : a.toEncoding.Writable where
  states_ne_nil := by
    intro h
    have hnil : a.states.toList = [] := List.map_eq_nil_iff.1 h
    have hmem : a.initial ∈ a.states.toList := ha.initial_mem
    rw [hnil] at hmem
    cases hmem
  encodable := ha.encodable
  label_encodable := by
    intro t ht c hlabel
    obtain ⟨u, hu, rfl⟩ := List.mem_map.1 ht
    have hmem : u ∈ a.transitions := by
      rwa [SortedSet.mem_toList, Relation.sorted, SortedSet.mem_ofList] at hu
    have hadmits := ha.label_mem u hmem
    have hchar : u.label = .char c := hlabel
    rw [hchar, Alphabet.admits_char] at hadmits
    exact ha.encodable c hadmits

theorem toAutomaton_toEncoding (ha : a.Consistent) : a.toEncoding.toAutomaton = .ok a.written := by
  have hparts : a.toEncoding.toAutomaton =
      build (a.states.toList.map a.writtenName) a.alphabet
        (a.transitions.sorted.toList.map (Edge.map a.writtenName)) (a.writtenName a.initial)
        (a.accepting.toList.map a.writtenName) := by
    simp only [Encoding.toAutomaton, toEncoding, List.map_map, SortedSet.ofList_toList]
    rfl
  rw [hparts]
  exact build_eq_ok_iff.2 ⟨(isImage_written ha).consistent ha, rfl⟩

/-- **A consistent automaton can be written and read back.** -/
theorem parse_encode (ha : a.Consistent) : parse a.encode = .ok a.written := by
  rw [parse, encode, Encoding.read_write (writable_toEncoding ha)]
  exact toAutomaton_toEncoding ha

/-- What was read is consistent. -/
theorem consistent_of_parse (h : parse text = .ok a) : a.Consistent := by
  unfold parse at h
  split at h
  · cases h
  · exact consistent_of_build h

/-! ## The names -/

theorem exists_simple_of_isNumbered (h : a.isNumbered = true) (hs : s ∈ a.states) :
    ∃ n, s = .simple n := by
  rcases s.eq_simple_or_eq_composite with hsimple | ⟨S, rfl⟩
  · exact hsimple
  · have hcomposite := List.all_eq_true.1 h _ hs
    rw [State.isComposite, State.memberSet?_composite] at hcomposite
    cases hcomposite

/-- Numbered states keep their numbers. -/
theorem writtenName_of_isNumbered (h : a.isNumbered = true) (hs : s ∈ a.states) :
    a.writtenName s = s := by
  obtain ⟨n, rfl⟩ := exists_simple_of_isNumbered h hs
  rw [writtenName, writtenId, if_pos h, State.id?_simple]
  rfl

theorem writtenName_of_not_isNumbered (h : a.isNumbered ≠ true) :
    a.writtenName s = numbered a.states.toList s := by
  rw [writtenName, writtenId, if_neg h, numbered]

theorem tellsApart_writtenName_of_isNumbered (h : a.isNumbered = true) :
    TellsApart (· ∈ a.states) a.writtenName := by
  intro s t hs ht heq
  rwa [writtenName_of_isNumbered h hs, writtenName_of_isNumbered h ht] at heq

/-- Up to as many states as there are 32-bit numbers, no two of them are written alike. -/
theorem tellsApart_writtenName (hsize : a.states.size ≤ 2 ^ 32) :
    TellsApart (· ∈ a.states) a.writtenName := by
  by_cases h : a.isNumbered = true
  · exact tellsApart_writtenName_of_isNumbered h
  · intro s t hs ht heq
    rw [writtenName_of_not_isNumbered h, writtenName_of_not_isNumbered h] at heq
    exact eq_of_numbered_eq hsize hs ht heq

/-! ## Numbered automata -/

theorem isNumbered_iff : a.isNumbered = true ↔ ∀ s ∈ a.states, ∃ n, s = .simple n := by
  refine ⟨fun h s => exists_simple_of_isNumbered h, fun h => List.all_eq_true.2 fun s hs => ?_⟩
  obtain ⟨n, rfl⟩ := h s hs
  rfl

/-- **A numbered automaton comes back as it was.** -/
theorem same_written_of_isNumbered (ha : a.Consistent) (h : a.isNumbered = true) :
    a.written.same a = true := by
  have himage := isImage_written ha
  have hname : ∀ s ∈ a.states, a.writtenName s = s := fun s => writtenName_of_isNumbered h
  refine same_iff.2 ⟨SortedSet.ext fun t => ?_, rfl, fun t => ?_, ?_, SortedSet.ext fun t => ?_⟩
  · rw [himage.mem_states]
    constructor
    · rintro ⟨s, hs, rfl⟩
      rwa [hname s hs]
    · intro ht
      exact ⟨t, ht, (hname t ht).symm⟩
  · rw [himage.mem_transitions]
    constructor
    · rintro ⟨s, x, u, hs, hstep, rfl⟩
      rwa [hname s hs, hname u (ha.target_mem _ hstep)]
    · intro ht
      refine ⟨t.source, t.label, t.target, ha.source_mem t ht, ht, ?_⟩
      rw [hname _ (ha.source_mem t ht), hname _ (ha.target_mem t ht)]
  · rw [himage.initial_eq, hname a.initial ha.initial_mem]
  · rw [himage.mem_accepting]
    constructor
    · rintro ⟨s, hs, hacc, rfl⟩
      rwa [hname s hs]
    · intro hacc
      exact ⟨t, ha.accepting_mem t hacc, hacc, (hname t (ha.accepting_mem t hacc)).symm⟩

/-- The written form does not depend on the order in which transitions were given. -/
theorem encode_eq_of_same (h : a.same b = true) : a.encode = b.encode := by
  obtain ⟨hstates, halphabet, htransitions, hinitial, haccepting⟩ := same_iff.1 h
  have hsorted : a.transitions.sorted = b.transitions.sorted :=
    SortedSet.ofList_eq_ofList.2 htransitions
  have hid : a.writtenId = b.writtenId := by
    funext s
    rw [writtenId, writtenId, isNumbered, isNumbered, hstates]
  rw [encode, encode, toEncoding, toEncoding, hid, hstates, halphabet, hsorted, hinitial,
    haccepting]

/-- **Numbered automata have equal written forms exactly when they are the same.** -/
theorem encode_eq_encode_iff (ha : a.Consistent) (hb : b.Consistent) (hna : a.isNumbered = true)
    (hnb : b.isNumbered = true) : a.encode = b.encode ↔ a.same b = true := by
  refine ⟨fun h => ?_, encode_eq_of_same⟩
  have hread : parse a.encode = .ok b.written := h ▸ parse_encode hb
  have hwritten : a.written = b.written := Except.ok.inj ((parse_encode ha).symm.trans hread)
  have hback := same_written_of_isNumbered ha hna
  rw [hwritten] at hback
  exact same_trans (same_symm hback) (same_written_of_isNumbered hb hnb)

/-- **An automaton whose states are all numbered is read back from its encoding as it was.**  This
is so for every automaton that can be built from numbered states, over whatever alphabet. -/
theorem exists_parse_encode_same {states : List State} {alphabet : Alphabet}
    {transitions : List Transition} {initial : State} {accepting : List State}
    (h : build states alphabet transitions initial accepting = .ok a)
    (hsimple : ∀ s ∈ a.states, ∃ n, s = .simple n) :
    ∃ b, parse a.encode = .ok b ∧ b.same a = true := by
  have ha := consistent_of_build h
  exact ⟨a.written, parse_encode ha, same_written_of_isNumbered ha (isNumbered_iff.2 hsimple)⟩

/-- An automaton over a digit, a sign, a quotation mark, a control character and an invisible
space, with its largest state number as large as possible and no accepting state. -/
def marks : Automaton :=
  ofParts [.simple 10, .simple 2, .simple 4294967295]
    (SortedSet.ofList ['7', '-', '"', '\x01', '\u200b'])
    [⟨.simple 10, .char '7', .simple 2⟩, ⟨.simple 2, .epsilon, .simple 4294967295⟩,
      ⟨.simple 10, .char '"', .simple 2⟩, ⟨.simple 10, .char '7', .simple 2⟩]
    (.simple 10) []

theorem build_marks :
    build [.simple 10, .simple 2, .simple 4294967295]
      (SortedSet.ofList ['7', '-', '"', '\x01', '\u200b'])
      [⟨.simple 10, .char '7', .simple 2⟩, ⟨.simple 2, .epsilon, .simple 4294967295⟩,
        ⟨.simple 10, .char '"', .simple 2⟩, ⟨.simple 10, .char '7', .simple 2⟩]
      (.simple 10) [] = .ok marks := rfl

theorem exists_simple_of_mem_marks : ∀ s ∈ marks.states, ∃ n, s = .simple n :=
  fun _ => exists_simple_of_isNumbered rfl

theorem exists_parse_encode_same_marks :
    (∀ s ∈ marks.states, ∃ n, s = .simple n) ∧
      ∃ b, parse marks.encode = .ok b ∧ b.same marks = true :=
  ⟨exists_simple_of_mem_marks, exists_parse_encode_same build_marks exists_simple_of_mem_marks⟩

end Automaton
end Determinization
