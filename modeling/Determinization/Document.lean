import Determinization.Automaton.Basic

/-!
# Automata as JSON documents

The document of an automaton has one field for each component, with all lists sorted, so equal
automata have equal documents.  A symbol is a bare name for the empty word and an object with one
field for a character, so no character looks like the empty word.
-/

namespace Determinization

/-- The symbol as a JSON document. -/
def Symbol.document : Symbol → Json
  | epsilon => .string "Epsilon".toList
  | char c => .object [("Char".toList, .string [c])]

/-- The alphabet as a JSON document. -/
def Alphabet.document (A : Alphabet) : Json := .array (A.toList.map fun c => .string [c])

/-- The transition as a JSON document. -/
def Transition.document (t : Transition) : Json :=
  .object
    [("from".toList, t.source.document), ("symbol".toList, t.label.document),
      ("to".toList, t.target.document)]

/-- The automaton as a JSON document. -/
def Automaton.document (a : Automaton) : Json :=
  .object
    [("states".toList, .array (a.states.toList.map State.document)),
      ("alphabet".toList, a.alphabet.document),
      ("transitions".toList, .array (a.transitions.sorted.toList.map Transition.document)),
      ("initial".toList, a.initial.document),
      ("accepting".toList, .array (a.accepting.toList.map State.document))]

end Determinization
