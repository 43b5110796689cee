import Determinization.Toml.Basic
import Determinization.Toml.Scalar

/-!
# Reading TOML

A TOML text is read line by line.  A header in brackets chooses the table that the following lines
fill, a header in double brackets adds a table to several, and any other line gives a value to a
key.  Comments start with a number sign.  Keys are bare words or quoted texts, and dots lead into
tables; values are quoted texts of four kinds, the two truth values, numbers and dates, arrays, and
tables in braces.

A line ends where its value does, but inside brackets and braces line breaks and comments may stand
between any two tokens.  Brackets and braces nest up to `depthLimit`, and a key has no more parts
than that.
-/

namespace Determinization
namespace Toml

/-- A space or a tab. -/
def isGap (c : Char) : Bool := c == ' ' || c == '\t'

/-- A control character that may not stand in a text or a comment. -/
def isControl (c : Char) : Bool := (c.toNat < 0x20 && c != '\t') || c == '\x7f'

/-- A character of a bare key. -/
def isBare (c : Char) : Bool :=
  c.isAlphanum || c == '_' || c == '-'

/-- A text without its leading spaces and tabs. -/
def skipGap (s : List Char) : List Char := s.dropWhile isGap

/-- Read a line break. -/
def readNewline : List Char → Option (List Char)
  | '\n' :: s => some s
  | '\r' :: '\n' :: s => some s
  | _ => none

/-- Skip a comment up to the end of its line. -/
def skipComment : List Char → Option (List Char)
  | [] => some []
  | c :: s =>
      match readNewline (c :: s) with
      | some _ => some (c :: s)
      | none => if isControl c then none else skipComment s

/-- Skip spaces, line breaks and comments, in at most so many steps. -/
def skipFill : Nat → List Char → Option (List Char)
  | 0, s => some s
  | limit + 1, s =>
      match skipGap s with
      | '#' :: s => (skipComment s).bind (skipFill limit)
      | s =>
          match readNewline s with
          | some s => skipFill limit s
          | none => some s

/-- How deep arrays and tables in braces may be nested, and how many parts a key may have. -/
def depthLimit : Nat := 80

/-! ## Texts -/

/-- The character with a code point given by digits in base sixteen. -/
def scalar? (digits : List Char) : Option Char :=
  let value? := digits.foldl (fun n c => n.bind fun n =>
    if c.isDigit then some (16 * n + (c.toNat - 48))
    else if 'a'.toNat ≤ c.toNat && c.toNat ≤ 'f'.toNat then some (16 * n + (c.toNat - 87))
    else if 'A'.toNat ≤ c.toNat && c.toNat ≤ 'F'.toNat then some (16 * n + (c.toNat - 55))
    else none) (some 0)
  value?.bind fun n => if n.isValidChar then some (Char.ofNat n) else none

/-- The character that a backslash and a letter stand for. -/
def simpleEscape? : Char → Option Char
  | 'b' => some '\x08'
  | 't' => some '\t'
  | 'n' => some '\n'
  | 'f' => some '\x0c'
  | 'r' => some '\r'
  | 'e' => some '\x1b'
  | '"' => some '"'
  | '\\' => some '\\'
  | _ => none

/-- How many digits follow a backslash and a letter that announce a code point. -/
def escapeDigits? : Char → Option Nat
  | 'x' => some 2
  | 'u' => some 4
  | 'U' => some 8
  | _ => none

/-- Read what follows a backslash. -/
def readEscape : List Char → Option (Char × List Char)
  | [] => none
  | c :: s =>
      match simpleEscape? c with
      | some d => some (d, s)
      | none =>
          match escapeDigits? c with
          | none => none
          | some n =>
              if (s.take n).length = n then (scalar? (s.take n)).map fun d => (d, s.drop n)
              else none

/-- Read a text up to its closing quotation mark, in at most so many steps. -/
def readBasic : Nat → List Char → Option (List Char × List Char)
  | 0, _ => none
  | _, [] => none
  | _ + 1, '"' :: s => some ([], s)
  | limit + 1, '\\' :: s => do
      let (c, s) ← readEscape s
      let (t, s) ← readBasic limit s
      pure (c :: t, s)
  | limit + 1, c :: s =>
      if isControl c then none
      else (readBasic limit s).map fun r => (c :: r.1, r.2)

/-- Read a literal text up to its closing apostrophe. -/
def readLiteral : List Char → Option (List Char × List Char)
  | [] => none
  | '\'' :: s => some ([], s)
  | c :: s => if isControl c then none else (readLiteral s).map fun r => (c :: r.1, r.2)

/-- A text without a line break at its beginning. -/
def dropNewline (s : List Char) : List Char := (readNewline s).getD s

/-- A text without the spaces and line breaks at its beginning. -/
def skipLines : List Char → List Char
  | '\r' :: '\n' :: s => skipLines s
  | c :: s => if isGap c || c == '\n' then skipLines s else c :: s
  | [] => []

/-- The end of a text over several lines, given what follows the first three marks in a row: up to
two more marks belong to the text. -/
def readClosing (mark : Char) (s : List Char) : Option (List Char × List Char) :=
  let extra := s.takeWhile (· == mark)
  if extra.length ≤ 2 then some (extra, s.drop extra.length) else none

/-- Read a text over several lines up to three quotation marks, in at most so many steps.  A
backslash at the end of a line hides the line break and the spaces after it. -/
def readLongBasic : Nat → List Char → Option (List Char × List Char)
  | 0, _ => none
  | _, [] => none
  | _ + 1, '"' :: '"' :: '"' :: s => readClosing '"' s
  | limit + 1, '\\' :: s =>
      match readNewline (skipGap s) with
      | some rest => readLongBasic limit (skipLines rest)
      | none => do
          let (c, s) ← readEscape s
          let (t, s) ← readLongBasic limit s
          pure (c :: t, s)
  | limit + 1, c :: s =>
      if isControl c && (readNewline (c :: s)).isNone then none
      else (readLongBasic limit s).map fun r => (c :: r.1, r.2)

/-- Read a literal text over several lines up to three apostrophes. -/
def readLongLiteral : List Char → Option (List Char × List Char)
  | [] => none
  | '\'' :: '\'' :: '\'' :: s => readClosing '\'' s
  | c :: s =>
      if isControl c && (readNewline (c :: s)).isNone then none
      else (readLongLiteral s).map fun r => (c :: r.1, r.2)

/-! ## Keys and values -/

/-- Read one part of a key. -/
def readKeyPart : List Char → Option (Key × List Char)
  | '"' :: s => readBasic (s.length + 1) s
  | '\'' :: s => readLiteral s
  | s =>
      match s.takeWhile isBare with
      | [] => none
      | k => some (k, s.dropWhile isBare)

/-- Read a key, whose parts are separated by dots, in at most so many parts. -/
def readKey : Nat → List Char → Option (List Key × List Char)
  | 0, _ => none
  | limit + 1, s => do
      let (k, s) ← readKeyPart (skipGap s)
      match skipGap s with
      | '.' :: s =>
          let (ks, s) ← readKey limit s
          pure (k :: ks, s)
      | s => pure ([k], s)

/-- Read a key, which has at most `depthLimit` parts. -/
def readPath (s : List Char) : Option (List Key × List Char) := readKey depthLimit s

/-- Does the character end an unquoted value? -/
def isDelimiter (c : Char) : Bool :=
  ['=', ',', '[', ']', '\x7b', '\x7d', '#', '\r', '\n'].contains c

/-- A mark with which a text is quoted. -/
def isQuote (c : Char) : Bool := c == '\'' || c == '"'

/-- May a word of an unquoted value begin with this character? -/
def beginsWord (c : Char) : Bool := !isDelimiter c && !isGap c && !isQuote c && c != '.'

/-- The unquoted value at the beginning of a text.  Its words are joined by dots, or by spaces and
tabs, because a time may follow a date like that.  A quotation mark belongs to a word only inside
it, which the first argument is about. -/
def unquoted : Bool → List Char → List Char
  | _, [] => []
  | inside, c :: s =>
      if c == '.' then c :: unquoted false s
      else if isGap c then
        if (skipGap s).head?.any beginsWord then c :: unquoted false s else []
      else if isDelimiter c || (isQuote c && !inside) then []
      else c :: unquoted true s

/-- Read an unquoted value as it is written. -/
def readUnquoted (s : List Char) : List Char × List Char :=
  let value := unquoted false s
  (value, s.drop value.length)

/-- The value that unquoted words stand for. -/
def ofUnquoted? (word : List Char) : Option Node :=
  if word = ['t', 'r', 'u', 'e'] then some (.flag true)
  else if word = ['f', 'a', 'l', 's', 'e'] then some (.flag false)
  else if isNumber word || isMoment word then some .scalar
  else none

mutual

/-- Read a value, with at most so many steps along it and brackets or braces inside each other. -/
def readValue : Nat → Nat → List Char → Option (Node × List Char)
  | 0, _, _ => none
  | limit + 1, depth, s =>
      match s with
      | '"' :: '"' :: '"' :: s =>
          (readLongBasic (s.length + 1) (dropNewline s)).map fun r => (.text r.1, r.2)
      | '"' :: s => (readBasic (s.length + 1) s).map fun r => (.text r.1, r.2)
      | '\'' :: '\'' :: '\'' :: s =>
          (readLongLiteral (dropNewline s)).map fun r => (.text r.1, r.2)
      | '\'' :: s => (readLiteral s).map fun r => (.text r.1, r.2)
      | '[' :: s =>
          match depth with
          | 0 => none
          | depth + 1 => (readItems limit depth s).map fun r => (.array r.1, r.2)
      | '\x7b' :: s =>
          match depth with
          | 0 => none
          | depth + 1 => (readFields limit depth [] s).map fun r => (.table .inline r.1, r.2)
      | s => (ofUnquoted? (readUnquoted s).1).map fun v => (v, (readUnquoted s).2)

/-- Read the items of an array and its closing bracket. -/
def readItems : Nat → Nat → List Char → Option (List Node × List Char)
  | 0, _, _ => none
  | limit + 1, depth, s => do
      match ← skipFill (s.length + 1) s with
      | ']' :: s => pure ([], s)
      | s =>
          let (v, s) ← readValue limit depth s
          match ← skipFill (s.length + 1) s with
          | ']' :: s => pure ([v], s)
          | ',' :: s =>
              let (vs, s) ← readItems limit depth s
              pure (v :: vs, s)
          | _ => none

/-- Read the fields of a table in braces and its closing brace. -/
def readFields : Nat → Nat → Entries → List Char → Option (Entries × List Char)
  | 0, _, _, _ => none
  | limit + 1, depth, entries, s => do
      match ← skipFill (s.length + 1) s with
      | '\x7d' :: s => pure (entries, s)
      | s =>
          let (k, s) ← readPath s
          match ← skipFill (s.length + 1) s with
          | '=' :: s =>
              let s ← skipFill (s.length + 1) s
              let (v, s) ← readValue limit depth s
              let entries ← entries.insert k v
              match ← skipFill (s.length + 1) s with
              | '\x7d' :: s => pure (entries, s)
              | ',' :: s => readFields limit depth entries s
              | _ => none
          | _ => none

end

/-! ## Lines -/

/-- Read the end of a line, with a comment if there is one. -/
def readLineEnd (s : List Char) : Option (List Char) :=
  match skipGap s with
  | [] => some []
  | '#' :: s => (skipComment s).map dropNewline
  | s => readNewline s

/-- Read the key of a header and its closing brackets. -/
def readHeader (closing s : List Char) : Option (List Key × List Char) := do
  let (k, s) ← readPath s
  if closing.isPrefixOf s then
    let s ← readLineEnd (s.drop closing.length)
    pure (k, s)
  else none

/-- Open the last table of a path, having gone through the others. -/
def openAt (openLast : Key → Entries → Option Entries) (path : List Key) (root : Entries) :
    Option Entries :=
  match path.getLast? with
  | some k => root.modifyAt (openLast k) path.dropLast
  | none => none

/-- Read the remaining lines, of which there are at most so many, into the table `root`, the table
at `path` being the one that lines fill. -/
def readLines : Nat → Entries → List Key → List Char → Option Entries
  | 0, _, _, _ => none
  | limit + 1, root, path, s =>
      match skipGap s with
      | [] => some root
      | '[' :: '[' :: s => do
          let (path, s) ← readHeader [']', ']'] s
          let root ← openAt Entries.openItem path root
          readLines limit root path s
      | '[' :: s => do
          let (path, s) ← readHeader [']'] s
          let root ← openAt Entries.openTable path root
          readLines limit root path s
      | '#' :: s => do
          let s ← skipComment s
          readLines limit root path (dropNewline s)
      | s =>
          match readNewline s with
          | some s => readLines limit root path s
          | none => do
              let (k, s) ← readPath s
              match s with
              | '=' :: s =>
                  let (v, s) ← readValue (s.length + 1) depthLimit (skipGap s)
                  let s ← readLineEnd s
                  let root ← root.modifyAt (Entries.insert k v) path
                  readLines limit root path s
              | _ => none

/-- Read a TOML text, after the mark of byte order if it begins with one. -/
def read (text : List Char) : Option Entries :=
  let s := match text with
    | '\ufeff' :: s => s
    | s => s
  readLines (s.length + 2) [] [] s

end Toml
end Determinization
