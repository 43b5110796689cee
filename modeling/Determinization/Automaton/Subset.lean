import Determinization.Automaton.Closure
import Determinization.Dfa

/-!
# The subset construction

The deterministic automaton of an automaton has sets of its states for states, each written as a
composite state.  It starts in the closure of the initial state, and a character leads from a set to
the set of the states that the character, followed by any number of moves on the empty word, leads
to from its members.  A set without members is the dead state; every character leads from it to
itself.  A set is accepting when one of its members is.

Only the sets that words lead to are built, and the worklist order does not change which these are.
Sets are recognised by their members, whatever way led to them.
-/

namespace Determinization
namespace Automaton

/-- The set that a character leads to from the states that a state stands for. -/
def successorSet (a : Automaton) (s : State) (c : Char) : State :=
  State.composite (a.move s.members c)

/-- The search that discovers the sets that words lead to. -/
def subsetSearch (a : Automaton) (order : WorklistOrder) : Search State :=
  Search.explore order (fun s => a.alphabet.toList.map (a.successorSet s)) (Nat.pow 2 a.states.size)
    [State.composite (a.closure [a.initial])]

/-- The deterministic automaton that accepts the same words. -/
def toDfa (a : Automaton) (order : WorklistOrder) : Dfa :=
  let sets := SortedSet.ofList (a.subsetSearch order).found
  ⟨{ states := sets
     alphabet := a.alphabet
     transitions := Relation.ofTable sets a.alphabet a.successorSet
     initial := State.composite (a.closure [a.initial])
     accepting := sets.filter fun s => a.isAcceptingSet s.members }⟩

end Automaton
end Determinization
