/-!
# Listings

All output of this library that lists things puts a fixed separator between the items and none
around them; sets are listed between braces.  Cutting a text at a separator is the reverse.
-/

namespace Determinization
namespace Text

/-- The items one after the other with a separator between neighbours. -/
def join (separator : List Char) (items : List (List Char)) : List Char :=
  separator.intercalate items

/-- The items between braces, separated by commas. -/
def braced (items : List (List Char)) : List Char :=
  ['\x7b'] ++ join [',', ' '] items ++ ['\x7d']

/-- The pieces of a text between the occurrences of a character. -/
def pieces (separator : Char) : List Char → List (List Char)
  | [] => [[]]
  | c :: s =>
      match pieces separator s with
      | [] => [[c]]
      | p :: ps => if c = separator then [] :: p :: ps else (c :: p) :: ps

/-- The lines of a text, each without the line break at its end; a carriage return before a line
break belongs to the break. -/
def linesOf (s : List Char) : List (List Char) :=
  let ended := (pieces '\n' s).dropLast.map fun line =>
    if line.getLast? = some '\r' then line.dropLast else line
  match (pieces '\n' s).getLast? with
  | none => ended
  | some [] => ended
  | some rest => ended ++ [rest]

/-- A text as one line, with a single space in place of line breaks that follow each other. -/
def oneLine (s : List Char) : List Char :=
  join [' '] ((linesOf s).filter fun line => !line.isEmpty)

/-- A natural number in decimal digits. -/
def decimal (n : Nat) : List Char := Nat.toDigits 10 n

end Text
end Determinization
