import Determinization.Automaton.Basic
import Determinization.Search

/-!
# Reachable states

A state is reachable when transitions on any symbols, the empty word included, lead to it from the
initial state.  Pruning keeps the reachable states and the transitions between them.
-/

namespace Determinization
namespace Automaton

/-- The states that transitions lead to from the initial state. -/
def reachable (a : Automaton) : SortedSet State :=
  SortedSet.ofList
    (Search.explore .lifo (fun s => (a.transitions.outgoing s).map Prod.snd)
      (1 + a.transitions.size) [a.initial]).found

/-- The automaton without the states that are not reachable. -/
def removeUnreachable (a : Automaton) : Automaton :=
  let kept := a.reachable
  { states := kept
    alphabet := a.alphabet
    transitions := a.transitions.filter fun t =>
      decide (t.source ∈ kept) && decide (t.target ∈ kept)
    initial := a.initial
    accepting := a.accepting.filter fun s => decide (s ∈ kept) }

end Automaton
end Determinization
