import Determinization.Dfa

/-!
# Set notation

An automaton is described by its five components, one on each line: the states `K`, the alphabet
`Σ`, the transitions, the initial state `s` and the accepting states `A`.  The transitions are a
relation `Δ` in general and a function `δ` for a deterministic automaton.  Symbols stand for
themselves, so a transition on the character `ε` reads like one on the empty word.
-/

namespace Determinization
namespace Automaton

/-- The set notation with a given name for the transitions. -/
def setNotationWith (a : Automaton) (relationName : Char) : List Char :=
  let line (name : Char) (value : List Char) : List Char :=
    [name, ' ', '=', ' '] ++ value ++ ['\n']
  line 'K' (State.listText a.states.toList) ++
    line 'Σ' a.alphabet.text ++
    line relationName (Text.braced (a.transitions.sorted.toList.map Transition.text)) ++
    line 's' a.initial.text ++
    line 'A' (State.listText a.accepting.toList)

/-- The set notation of an automaton. -/
def setNotation (a : Automaton) : List Char := a.setNotationWith 'Δ'

end Automaton

/-- The set notation of a deterministic automaton. -/
def Dfa.setNotation (d : Dfa) : List Char := d.automaton.setNotationWith 'δ'

end Determinization
