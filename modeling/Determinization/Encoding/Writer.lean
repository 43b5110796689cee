import Determinization.Encoding.Reader

/-!
# Writing encodings

The written form of an automaton lists its states, symbols, transitions and accepting states in
order, so equal automata are written alike.  If all states are numbered they keep their numbers;
otherwise every state is written as its position in the order of states.  Both ways of numbering
increase with the order of states, which is why sorted lists of states come out as sorted lists of
numbers.
-/

namespace Determinization
namespace Encoding

/-- A number in decimal digits. -/
def writeNumber (n : UInt32) : List Char := Text.decimal n.toNat

/-- A transition, its parts separated by commas. -/
def writeTransition (t : Edge UInt32) : List Char :=
  Text.join [','] [writeNumber t.source, t.label.encode, writeNumber t.target]

/-- The text of an encoding, without any blank that could be left out. -/
def write (e : Encoding) : List Char :=
  Text.join ['/']
    [Text.join [' '] (e.states.map writeNumber),
      Text.join [' '] (e.alphabet.map fun c => [c]),
      Text.join [';'] (e.transitions.map writeTransition),
      writeNumber e.initial,
      Text.join [' '] (e.accepting.map writeNumber)]

end Encoding

namespace Automaton

/-- Are all states numbered? -/
def isNumbered (a : Automaton) : Bool := a.states.toList.all fun s => !s.isComposite

/-- The number that a state is written as. -/
def writtenId (a : Automaton) (s : State) : UInt32 :=
  if a.isNumbered then s.id?.getD 0 else UInt32.ofNat (a.states.toList.idxOf s)

/-- The content of the written form. -/
def toEncoding (a : Automaton) : Encoding where
  states := a.states.toList.map a.writtenId
  alphabet := a.alphabet.toList
  transitions := a.transitions.sorted.toList.map (Edge.map a.writtenId)
  initial := a.writtenId a.initial
  accepting := a.accepting.toList.map a.writtenId

/-- The written form. -/
def encode (a : Automaton) : List Char := a.toEncoding.write

end Automaton

/-- Read an automaton, determinize it and write its canonical form. -/
def convert (text : List Char) : Except Error (List Char) :=
  match Automaton.parse text with
  | .error e => .error e
  | .ok a => .ok (a.toDfa .fifo).canonicalize.automaton.encode

end Determinization
