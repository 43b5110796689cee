import Determinization.Text.Quoted
import Determinization.Text.Listing

/-!
# JSON documents and their two layouts

A document is a text, a number, a list of documents, or a list of named documents; nothing else is
needed to describe automata.  It is written compactly, or over several lines with two spaces of
indentation per level.  Empty lists and objects are written without a line break in either layout.

Inside quotes only what the JSON standard asks for is escaped: the quote, the backslash and the
control characters below U+0020, five of them by a letter and the others by four digits.
-/

namespace Determinization

/-- A JSON document. -/
inductive Json where
  | string (s : List Char)
  | number (n : Nat)
  | array (items : List Json)
  | object (fields : List (List Char × Json))

namespace Json

/-- A code point below 256 in four digits of base sixteen. -/
def fourDigits (n : Nat) : List Char := ['0', '0', (n / 16).digitChar, (n % 16).digitChar]

/-- What stands between the quotes for one character. -/
def escape : Char → List Char
  | '"' => ['\\', '"']
  | '\\' => ['\\', '\\']
  | '\n' => ['\\', 'n']
  | '\r' => ['\\', 'r']
  | '\t' => ['\\', 't']
  | '\x08' => ['\\', 'b']
  | '\x0c' => ['\\', 'f']
  | c => if c.toNat < 0x20 then ['\\', 'u'] ++ fourDigits c.toNat else [c]

/-- A text between quotes. -/
def quoted (s : List Char) : List Char := ['"'] ++ s.flatMap escape ++ ['"']

mutual

/-- The document on one line, without spaces. -/
def compact : Json → List Char
  | string s => quoted s
  | number n => Text.decimal n
  | array items => ['['] ++ Text.join [','] (compactItems items) ++ [']']
  | object fields => ['\x7b'] ++ Text.join [','] (compactFields fields) ++ ['\x7d']

/-- The items of an array, each on its own. -/
def compactItems : List Json → List (List Char)
  | [] => []
  | v :: vs => v.compact :: compactItems vs

/-- The fields of an object, each on its own. -/
def compactFields : List (List Char × Json) → List (List Char)
  | [] => []
  | (k, v) :: fs => (quoted k ++ [':'] ++ v.compact) :: compactFields fs

end

/-- A line break followed by two spaces for each level. -/
def newline (level : Nat) : List Char := '\n' :: List.replicate (2 * level) ' '

/-- Items on lines of their own between two brackets; no lines if there is no item. -/
def block (level : Nat) (opening closing : Char) (items : List (List Char)) : List Char :=
  match items with
  | [] => [opening, closing]
  | _ :: _ =>
      [opening] ++ newline (level + 1) ++ Text.join ([','] ++ newline (level + 1)) items ++
        newline level ++ [closing]

mutual

/-- The document over several lines, its first line being at the given level. -/
def prettyAt (level : Nat) : Json → List Char
  | string s => quoted s
  | number n => Text.decimal n
  | array items => block level '[' ']' (prettyItems (level + 1) items)
  | object fields => block level '\x7b' '\x7d' (prettyFields (level + 1) fields)

/-- The items of an array, each at the given level. -/
def prettyItems (level : Nat) : List Json → List (List Char)
  | [] => []
  | v :: vs => v.prettyAt level :: prettyItems level vs

/-- The fields of an object, each at the given level. -/
def prettyFields (level : Nat) : List (List Char × Json) → List (List Char)
  | [] => []
  | (k, v) :: fs => (quoted k ++ [':', ' '] ++ v.prettyAt level) :: prettyFields level fs

end

/-- The document over several lines. -/
def pretty (d : Json) : List Char := d.prettyAt 0

end Json

end Determinization
