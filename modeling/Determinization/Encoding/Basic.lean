import Determinization.Automaton.Subset

/-!
# Encodings

An encoding is what the textual notation of an automaton says before anything is checked: numbers,
characters and numbered transitions as they were written, in their order and with repetitions.
-/

namespace Determinization

/-- The content of a written automaton. -/
structure Encoding where
  states : List UInt32
  alphabet : List Char
  transitions : List (Edge UInt32)
  initial : UInt32
  accepting : List UInt32
  deriving DecidableEq

namespace Encoding

/-- The automaton with the written parts, or the first thing wrong with them. -/
def toAutomaton (e : Encoding) : Except Error Automaton :=
  Automaton.build (e.states.map State.simple) (SortedSet.ofList e.alphabet)
    (e.transitions.map (Edge.map State.simple)) (State.simple e.initial)
    (e.accepting.map State.simple)

end Encoding
end Determinization
