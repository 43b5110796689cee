import Determinization.Automaton.Basic
import Determinization.Search

/-!
# Closure under the empty word

The closure of some states consists of them and of everything that a chain of transitions on the
empty word leads to from one of them.  A state that is not declared has no transitions, so it is its
own closure.
-/

namespace Determinization
namespace Automaton

/-- The states joined to one of the given states by transitions on the empty word. -/
def closure (a : Automaton) (seeds : List State) : SortedSet State :=
  SortedSet.ofList
    (Search.explore .lifo (fun s => a.transitions.targets s .epsilon)
      (seeds.length + a.transitions.size) seeds).found

/-- The states in which the automaton can be after reading a character in one of some states. -/
def move (a : Automaton) (sources : List State) (c : Char) : SortedSet State :=
  a.closure (sources.flatMap fun s => a.transitions.targets s (.char c))

end Automaton
end Determinization
