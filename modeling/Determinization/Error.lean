import Determinization.Transition
import Determinization.Text.Quoted

/-!
# What can be wrong with an automaton

Errors are causes.  The first two constructors are about the text of an encoding, the third about
an alphabet that the encoding could not write, and the others about parts that do not fit together.
Their wording is in one function, `Error.message`.
-/

namespace Determinization

/-- The fields of an encoding, in the order in which they are read. -/
inductive Field where
  | states
  | alphabet
  | transitions
  | initial
  | accepting
  deriving DecidableEq

/-- What a field was expected to go on with where reading stopped. -/
inductive Expectation where
  /-- A number within the range of state numbers. -/
  | number
  /-- The end of the field. -/
  | nothing
  deriving DecidableEq

/-- The part of an automaton in which an undeclared state occurs. -/
inductive Place where
  | initial
  | accepting
  | source
  | target
  deriving DecidableEq

/-- Why there is no automaton. -/
inductive Error where
  /-- The text has neither four nor five fields. -/
  | fieldCount (found : Nat)
  /-- A field does not follow its grammar: the whole field, what was not read of it, and why. -/
  | badField (field : Field) (content rest : List Char) (expected : Expectation)
  /-- The alphabet has a character that the encoding uses for itself. -/
  | reservedSymbol (c : Char)
  | undeclaredState (place : Place) (s : State)
  /-- The label of the transition is not in the alphabet. -/
  | undeclaredSymbol (t : Transition)
  /-- A state has no target, or several, on a symbol of a deterministic machine. -/
  | targetCount (s : State) (c : Char) (count : Nat)
  deriving DecidableEq

namespace Field

/-- The name of a field in messages. -/
def name : Field → String
  | states => "states"
  | alphabet => "alphabet"
  | transitions => "transitions"
  | initial => "initial state"
  | accepting => "accepting states"

end Field

namespace Expectation

/-- The name of an expectation in messages. -/
def name : Expectation → String
  | number => "Digit"
  | nothing => "Eof"

end Expectation

namespace Place

/-- The name of a place in messages. -/
def name : Place → String
  | initial => "initial state"
  | accepting => "accepting state"
  | source => "transition source"
  | target => "transition target"

end Place

namespace Error

/-- The message of an error. -/
def message : Error → List Char
  | undeclaredState place s =>
      place.name.toList ++ [' '] ++ s.text ++ " is not a declared state".toList
  | undeclaredSymbol t =>
      "transition ".toList ++ t.text ++ " uses symbol ".toList ++ t.label.text ++
        " which is not in the alphabet".toList
  | targetCount s c n =>
      "state ".toList ++ s.text ++ " has ".toList ++ Text.decimal n ++
        " transitions on symbol ".toList ++ [c] ++ ", a DFA needs exactly one".toList
  | fieldCount n =>
      "malformed encoding: expected 5 fields separated by '/', found ".toList ++ Text.decimal n
  | badField field content rest expected =>
      "malformed encoding: invalid ".toList ++ field.name.toList ++ " field \x60".toList ++
        Text.trim content ++ "\x60: Parsing Error: Error \x7b input: ".toList ++
        Text.quoted rest ++ ", code: ".toList ++ expected.name.toList ++ " \x7d".toList
  | reservedSymbol c =>
      "malformed encoding: symbol ".toList ++ Text.quotedChar c ++
        " is reserved by the encoding and cannot be part of an alphabet".toList

end Error
end Determinization
