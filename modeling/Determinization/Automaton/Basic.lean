import Determinization.Relation

/-!
# Automata

A finite automaton has states, an alphabet, a transition relation, one initial state and accepting
states.  Several transitions may leave a state on the same symbol, and transitions may carry the
empty word.

`Automaton.build` is the way to make one from parts that somebody else supplies: it answers with the
automaton, or with the first thing wrong.  What it checks is the predicate `Automaton.Consistent`;
transformations make their results directly and keep that predicate.
-/

namespace Determinization

/-- A finite automaton, deterministic or not. -/
structure Automaton where
  states : SortedSet State
  alphabet : Alphabet
  transitions : Relation
  initial : State
  accepting : SortedSet State

namespace Automaton

/-- The parts of the automaton fit together, and its alphabet can be encoded. -/
structure Consistent (a : Automaton) : Prop where
  encodable : ∀ c ∈ a.alphabet, Symbol.isEncodable c = true
  initial_mem : a.initial ∈ a.states
  accepting_mem : ∀ s ∈ a.accepting, s ∈ a.states
  source_mem : ∀ t ∈ a.transitions, t.source ∈ a.states
  target_mem : ∀ t ∈ a.transitions, t.target ∈ a.states
  label_mem : ∀ t ∈ a.transitions, a.alphabet.admits t.label = true

/-- The automaton with the given parts, or the first thing wrong with them: a symbol that cannot be
encoded, then the initial state, then an accepting state, then a transition. -/
def build (states : List State) (alphabet : Alphabet) (transitions : List Transition)
    (initial : State) (accepting : List State) : Except Error Automaton :=
  let declared := SortedSet.ofList states
  let final := SortedSet.ofList accepting
  match alphabet.toList.find? fun c => !Symbol.isEncodable c with
  | some c => .error (.reservedSymbol c)
  | none =>
      if initial ∉ declared then .error (.undeclaredState .initial initial)
      else
        match final.toList.find? fun s => decide (s ∉ declared) with
        | some s => .error (.undeclaredState .accepting s)
        | none =>
            match Relation.build declared alphabet transitions with
            | .error e => .error e
            | .ok r => .ok ⟨declared, alphabet, r, initial, final⟩

/-- Have two automata the same states, alphabet, transitions, initial state and accepting states?
The order in which transitions were given does not count. -/
def same (a b : Automaton) : Bool :=
  a.states == b.states && a.alphabet == b.alphabet && a.transitions.same b.transitions &&
    a.initial == b.initial && a.accepting == b.accepting

/-- Is the state accepting? -/
def isAccepting (a : Automaton) (s : State) : Bool := decide (s ∈ a.accepting)

/-- Is one of the states accepting? -/
def isAcceptingSet (a : Automaton) (l : List State) : Bool := l.any a.isAccepting

/-- Is the state declared? -/
def hasState (a : Automaton) (s : State) : Bool := decide (s ∈ a.states)

end Automaton
end Determinization
