import Determinization.Automaton.Canonical
import Determinization.Automaton.Reachable

/-!
# Deterministic automata

A machine is deterministic when no transition carries the empty word and every declared state has
exactly one target on every character of the alphabet.  `Dfa.ofAutomaton` checks this and reports
the first violation: the transition on the empty word that was given first, or else the first state
and character, in their orders, with no target or with several.

The operations that keep a machine deterministic keep it a `Dfa`, without checking again.
-/

namespace Determinization

/-- No transition on the empty word, and one target for every state and every character. -/
structure Automaton.Deterministic (a : Automaton) : Prop where
  no_epsilon : ∀ t ∈ a.transitions, t.label ≠ .epsilon
  one_target : ∀ s ∈ a.states, ∀ c ∈ a.alphabet, (a.transitions.targets s (.char c)).length = 1

/-- A state and a character on which it has no target, or several, and their number. -/
def Automaton.targetFault? (a : Automaton) (s : State) (c : Char) : Option Error :=
  let count := (a.transitions.targets s (.char c)).length
  if count = 1 then none else some (.targetCount s c count)

/-- The first reason why an automaton is not deterministic. -/
def Automaton.determinismFault? (a : Automaton) : Option Error :=
  match a.transitions.toList.find? fun t => t.label.isEpsilon with
  | some t => some (.undeclaredSymbol t)
  | none =>
      (a.states.toList.flatMap fun s => a.alphabet.toList.map fun c => (s, c)).findSome?
        fun p => a.targetFault? p.1 p.2

/-- An automaton that is known to be deterministic. -/
structure Dfa where
  automaton : Automaton

namespace Dfa

/-- The automaton as a deterministic one, or the first reason why it is not. -/
def ofAutomaton (a : Automaton) : Except Error Dfa :=
  match a.determinismFault? with
  | some e => .error e
  | none => .ok ⟨a⟩

/-- The deterministic automaton with the given parts, or the first thing wrong with them. -/
def build (states : List State) (alphabet : Alphabet) (transitions : List Transition)
    (initial : State) (accepting : List State) : Except Error Dfa :=
  match Automaton.build states alphabet transitions initial accepting with
  | .error e => .error e
  | .ok a => ofAutomaton a

/-- The state that a character leads to. -/
def successor? (d : Dfa) (s : State) (c : Char) : Option State :=
  (d.automaton.transitions.targets s (.char c)).head?

/-- The empty composite state, if it is one of the states. -/
def deadState? (d : Dfa) : Option State := d.automaton.states.toList.find? State.isDead

/-- Does the automaton accept the word from the given state? -/
def acceptsFrom (d : Dfa) : State → List Char → Bool
  | s, [] => d.automaton.isAccepting s
  | s, c :: word =>
      match d.successor? s c with
      | some t => d.acceptsFrom t word
      | none => false

/-- Does the automaton accept the word?  One state is followed through it. -/
def accepts (d : Dfa) (word : List Char) : Bool := d.acceptsFrom d.automaton.initial word

/-- The canonical form; numbering keeps every reachable state with all of its transitions. -/
def canonicalize (d : Dfa) : Dfa := ⟨d.automaton.canonicalize⟩

/-- The reachable part; it contains the targets of its states. -/
def removeUnreachable (d : Dfa) : Dfa := ⟨d.automaton.removeUnreachable⟩

end Dfa
end Determinization
