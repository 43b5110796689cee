import Determinization.Encoding.Basic

/-!
# Reading encodings

The text of an encoding has five fields separated by slashes, and the fifth may be missing:

* the states, one number or several with blanks between them;
* the alphabet, any number of characters with blanks between them;
* the transitions, any number of them separated by semicolons, where one more semicolon may follow;
* the number of the initial state;
* the accepting states, any number of numbers with blanks between them.

A transition is written as its source, its label and its target with commas between them, and the
label is left out for the empty word.  Blanks around separators and around fields do not matter.

## How far a field is read

A reader of this module takes the longest beginning of the text that it can use and hands back the
rest.  A list ends before a separator that no item follows, and a transition is taken whole or not
at all.  What a field leaves unread is therefore a piece of its own text, and the error shows it.
-/

namespace Determinization
namespace Encoding

/-- The least number that is too large for a state. -/
def numberLimit : Nat := 4294967296

/-- A text without its leading blanks. -/
def skipBlanks (s : List Char) : List Char := s.dropWhile Text.isSkipped

/-- Read a number: all digits at the beginning of the text, if there are any and their value is not
too large. -/
def readNumber (s : List Char) : Option (UInt32 × List Char) :=
  let digits := s.takeWhile Char.isDigit
  let value := Nat.ofDigitChars 10 digits 0
  if digits.isEmpty || numberLimit ≤ value then none
  else some (UInt32.ofNat value, s.dropWhile Char.isDigit)

/-- Read a character that can be a symbol. -/
def readSymbol : List Char → Option (Char × List Char)
  | c :: s => if Symbol.isEncodable c then some (c, s) else none
  | [] => none

/-- Read the blanks between two items; at least one is needed. -/
def readGap : List Char → Option (List Char)
  | c :: s => if Text.isSkipped c then some (skipBlanks s) else none
  | [] => none

/-- Read a separator and the blanks around it. -/
def readSeparator (separator : Char) (s : List Char) : Option (List Char) :=
  match skipBlanks s with
  | c :: s => if c = separator then some (skipBlanks s) else none
  | [] => none

section Lists

variable {α : Type} (readBetween : List Char → Option (List Char))
  (readItem : List Char → Option (α × List Char))

/-- Read further items, each after what stands between two of them, but at most so many. -/
def readMore : Nat → List Char → List α × List Char
  | 0, s => ([], s)
  | limit + 1, s =>
      match readBetween s with
      | none => ([], s)
      | some t =>
          match readItem t with
          | none => ([], s)
          | some (a, t) =>
              let (l, rest) := readMore limit t
              (a :: l, rest)

/-- Read items up to the end of the list, which may be empty.  An item takes a character at least,
so a text has no more items than characters. -/
def readList (s : List Char) : List α × List Char :=
  match readItem s with
  | none => ([], s)
  | some (a, t) =>
      let (l, rest) := readMore readBetween readItem s.length t
      (a :: l, rest)

end Lists

/-- Read numbers with blanks between them. -/
def readNumbers (s : List Char) : List UInt32 × List Char := readList readGap readNumber s

/-- Read symbols with blanks between them. -/
def readSymbols (s : List Char) : List Char × List Char := readList readGap readSymbol s

/-- Read a label, which is empty where no symbol follows. -/
def readLabel (s : List Char) : Symbol × List Char :=
  match readSymbol s with
  | some (c, s) => (.char c, s)
  | none => (.epsilon, s)

/-- Read a transition. -/
def readTransition (s : List Char) : Option (Edge UInt32 × List Char) := do
  let (source, s) ← readNumber s
  let s ← readSeparator ',' s
  let (label, s) := readLabel s
  let s ← readSeparator ',' s
  let (target, s) ← readNumber s
  pure (⟨source, label, target⟩, s)

/-- Read transitions with semicolons between them, and one more semicolon if it follows. -/
def readTransitions (s : List Char) : List (Edge UInt32) × List Char :=
  let (l, s) := readList (readSeparator ';') readTransition s
  (l, (readSeparator ';' s).getD s)

/-- The error for a field of which something is left to read. -/
def leftover (field : Field) (content rest : List Char) : Error :=
  .badField field content rest .nothing

/-- A field that a reader takes whole, blanks around it aside. -/
def wholeField {α : Type} (field : Field) (read : List Char → α × List Char)
    (content : List Char) : Except Error α :=
  let (a, rest) := read (skipBlanks content)
  match skipBlanks rest with
  | [] => .ok a
  | c :: s => .error (leftover field content (c :: s))

/-- A field that has to begin with a number. -/
def numberedField {α : Type} (field : Field) (read : List Char → α × List Char)
    (content : List Char) : Except Error α :=
  match readNumber (skipBlanks content) with
  | none => .error (.badField field content (skipBlanks content) .number)
  | some _ => wholeField field read content

/-- Read a number where one is known to stand. -/
def readInitial (s : List Char) : UInt32 × List Char := (readNumber s).getD (0, s)

/-- The content of an encoding given its five fields. -/
def ofFields (states alphabet transitions initial accepting : List Char) :
    Except Error Encoding := do
  let states ← numberedField .states readNumbers states
  let alphabet ← wholeField .alphabet readSymbols alphabet
  let transitions ← wholeField .transitions readTransitions transitions
  let initial ← numberedField .initial readInitial initial
  let accepting ← wholeField .accepting readNumbers accepting
  pure ⟨states, alphabet, transitions, initial, accepting⟩

/-- Read an encoding, or say what is wrong with the first field that is not well-formed. -/
def read (text : List Char) : Except Error Encoding :=
  match Text.pieces '/' text with
  | [states, alphabet, transitions, initial] =>
      ofFields states alphabet transitions initial []
  | [states, alphabet, transitions, initial, accepting] =>
      ofFields states alphabet transitions initial accepting
  | fields => .error (.fieldCount fields.length)

end Encoding

/-- Read an automaton from its encoding, or say what is wrong with it. -/
def Automaton.parse (text : List Char) : Except Error Automaton :=
  match Encoding.read text with
  | .error e => .error e
  | .ok e => e.toAutomaton

end Determinization
