import Determinization.Automaton.Basic
import Determinization.Search

/-!
# Canonical numbering

The canonical form of an automaton has the numbers `0, 1, 2, …` for states, in the order in which a
search from the initial state discovers them.  The search takes the state found last; at each state
it follows the empty word first and then the characters in order, and the targets on one symbol in
the order of states.  States that are not reachable get no number and disappear.

For deterministic machines the numbering does not depend on what the states were called, because the
targets on one symbol are never more than one.
-/

namespace Determinization
namespace Automaton

/-- The targets of the moves from a state on a symbol, in the order of states. -/
def orderedTargets (a : Automaton) (s : State) (x : Symbol) : List State :=
  (SortedSet.ofList (a.transitions.targets s x)).toList

/-- The moves from a state in the order in which the canonical search follows them.  The transitions
are gone through once for the state, and not once for each of its symbols. -/
def orderedMoves (a : Automaton) (s : State) : List (Symbol × State) :=
  let own := a.transitions.outgoing s
  a.alphabet.labels.flatMap fun x =>
    (SortedSet.ofList ((own.filter fun m => m.1 == x).map Prod.snd)).toList.map fun t => (x, t)

theorem orderedMoves_eq_flatMap (a : Automaton) (s : State) :
    a.orderedMoves s =
      a.alphabet.labels.flatMap fun x => (a.orderedTargets s x).map fun t => (x, t) := by
  simp only [orderedMoves, orderedTargets, Relation.targets_eq_filter_outgoing]

/-- The search that numbers the states. -/
def canonicalSearch (a : Automaton) : Search State :=
  Search.explore .lifo (fun s => (a.orderedMoves s).map Prod.snd) (1 + a.transitions.size)
    [a.initial]

/-- The state that a position in a list of states is renamed to. -/
def numbered (found : List State) (s : State) : State :=
  State.simple (UInt32.ofNat (found.idxOf s))

/-- The automaton with its reachable states numbered in the order of their discovery. -/
def canonicalize (a : Automaton) : Automaton :=
  let search := a.canonicalSearch
  let name := numbered search.found
  { states := SortedSet.ofList (search.found.map name)
    alphabet := a.alphabet
    transitions := Relation.ofList
      (search.expanded.flatMap fun s =>
        (a.orderedMoves s).map fun m => ⟨name s, m.1, name m.2⟩)
    initial := State.simple 0
    accepting := (a.accepting.filter fun s => decide (s ∈ search.found)).image name }

end Automaton
end Determinization
