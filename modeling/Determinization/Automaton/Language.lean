import Determinization.Automaton.Closure

/-!
# Running words through an automaton

The set of states in which a nondeterministic automaton can be is followed through the word.  The
run ends early, without accepting, at a character outside the alphabet and when no state is left.
-/

namespace Determinization
namespace Automaton

/-- Does the automaton accept the word when it can be in the given states? -/
def acceptsFrom (a : Automaton) : List State → List Char → Bool
  | current, [] => a.isAcceptingSet current
  | current, c :: word =>
      if c ∈ a.alphabet then
        match (a.move current c).toList with
        | [] => false
        | s :: next => a.acceptsFrom (s :: next) word
      else false

/-- Does the automaton accept the word? -/
def accepts (a : Automaton) (word : List Char) : Bool :=
  a.acceptsFrom (a.closure [a.initial]).toList word

end Automaton
end Determinization
