import Determinization.Automaton.Language
import Determinization.Automaton.Subset

/-!
# Machines

A machine is an automaton of either kind.  The kinds share their components and differ in how they
run words: a nondeterministic machine follows the set of states in which it can be, a deterministic
one follows a single state.
-/

namespace Determinization

/-- An automaton that may be nondeterministic, or one that is known to be deterministic. -/
inductive Machine where
  | nfa (a : Automaton)
  | dfa (d : Dfa)

namespace Machine

/-- The components of the machine. -/
def automaton : Machine → Automaton
  | nfa a => a
  | dfa d => d.automaton

/-- Is the machine known to be deterministic? -/
def isDfa : Machine → Bool
  | nfa _ => false
  | dfa _ => true

/-- The characters that words of the machine are made of. -/
def alphabet (m : Machine) : Alphabet := m.automaton.alphabet

/-- Does the machine accept the word? -/
def accepts : Machine → List Char → Bool
  | nfa a => a.accepts
  | dfa d => d.accepts

/-- The canonical form, of the same kind. -/
def canonicalize : Machine → Machine
  | nfa a => nfa a.canonicalize
  | dfa d => dfa d.canonicalize

/-- The reachable part, of the same kind. -/
def removeUnreachable : Machine → Machine
  | nfa a => nfa a.removeUnreachable
  | dfa d => dfa d.removeUnreachable

end Machine
end Determinization
