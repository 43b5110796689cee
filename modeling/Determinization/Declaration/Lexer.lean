import Determinization.Declaration.Literal
import Determinization.Text.Quoted

/-!
# From a text to tokens

A text of a declaration is a sequence of tokens with gaps between them.  Blanks and ordinary
comments are gaps; a documentation comment is not, but stands for an attribute that holds its text.
Brackets have to close in the reverse order of their opening, and nothing may be left open at the
end.

At each place a literal is tried before a mark and a mark before a word.  The order matters: `1` is
no word, the quote before a lifetime is a mark only because it begins no character, and the letter
`b` of `b"x"` is no word because it begins a text.
-/

namespace Determinization
namespace Declaration

/-- Does the text begin like this? -/
def startsWith (start : String) (s : List Char) : Bool := start.toList.isPrefixOf s

/-- What was taken from the front of a text, given what is left of it. -/
def taken (s rest : List Char) : List Char := s.take (s.length - rest.length)

/-! ## Comments -/

/-- What follows a comment between signs, in which further comments may stand; the depth says how
many of them are open. -/
def afterComment? (depth : Nat) : List Char → Option (List Char)
  | '/' :: '*' :: s => afterComment? (depth + 1) s
  | '*' :: '/' :: s => if depth ≤ 1 then some s else afterComment? (depth - 1) s
  | _ :: s => afterComment? depth s
  | [] => none

/-- The text up to the end of its first line, and the text from there on. -/
def splitLine : List Char → List Char × List Char
  | '\r' :: '\n' :: s => ([], '\n' :: s)
  | c :: s =>
      if c = '\n' then ([], c :: s)
      else
        let (line, rest) := splitLine s
        (c :: line, rest)
  | [] => ([], [])

/-- Does a comment to the end of the line begin here that is no documentation? -/
def isLineComment (s : List Char) : Bool :=
  startsWith "//" s && !startsWith "//!" s && (!startsWith "///" s || startsWith "////" s)

/-- Does a comment between signs begin here that is no documentation? -/
def isSpannedComment (s : List Char) : Bool :=
  startsWith "/**/" s ||
    (startsWith "/*" s && !startsWith "/*!" s && (!startsWith "/**" s || startsWith "/***" s))

/-- A text without the gap at its beginning, of which at most so many pieces are skipped. -/
def skipGap : Nat → List Char → List Char
  | 0, s => s
  | limit + 1, s =>
      if isLineComment s then skipGap limit (splitLine s).2
      else if isSpannedComment s then
        match afterComment? 0 s with
        | some rest => skipGap limit rest
        | none => s
      else
        match s with
        | c :: rest => if isGap c then skipGap limit rest else s
        | [] => []

/-! ## Documentation -/

/-- The text between the quotes of a literal.  The end mark before a digit is written in a form to
which the digit cannot be joined. -/
def escapeText : List Char → List Char
  | '\x00' :: c :: s =>
      (if '0' ≤ c ∧ c ≤ '7' then ['\\', 'x', '0', '0'] else ['\\', '0']) ++ escapeText (c :: s)
  | c :: s => Text.escape '"' c ++ escapeText s
  | [] => []

/-- Is every carriage return of the text followed by a line feed? -/
def hasWholeBreaks : List Char → Bool
  | '\r' :: '\n' :: s => hasWholeBreaks s
  | c :: s => c != '\r' && hasWholeBreaks s
  | [] => true

/-- The attribute that a documentation comment stands for; that of the enclosing thing has an
exclamation mark. -/
def documentation (inner : Bool) (text : List Char) : List Token :=
  [.mark '#' false] ++ (if inner then [.mark '!' false] else []) ++
    [.opening .square, .word "doc".toList, .mark '=' false,
      .literal (['"'] ++ escapeText text ++ ['"']), .closing .square]

/-- Read a documentation comment. -/
def readDocumentation? (s : List Char) : Option (List Token × List Char) :=
  let line (inner : Bool) :=
    let (text, rest) := splitLine (s.drop 3)
    some (inner, text, rest)
  let spanned (inner : Bool) := (afterComment? 0 s).map fun rest =>
    let comment := taken s rest
    (inner, (comment.take (comment.length - 2)).drop 3, rest)
  let found :=
    if startsWith "//!" s then line true
    else if startsWith "/*!" s then spanned true
    else if startsWith "///" s && !startsWith "////" s then line false
    else if startsWith "/**" s && !startsWith "/***" s then spanned false
    else none
  found.bind fun (inner, text, rest) =>
    if hasWholeBreaks text then some (documentation inner text, rest) else none

/-! ## Tokens -/

/-- What follows a word, which may be marked as a raw name. -/
def afterName? (s : List Char) : Option (List Char) :=
  if startsWith "r#" s then
    (afterWord? (s.drop 2)).bind fun rest =>
      if ["_", "super", "self", "Self", "crate"].any fun w => w.toList == taken (s.drop 2) rest then
        none
      else some rest
  else afterWord? s

/-- Does the text begin like a text literal?  If it is none, it is no word either. -/
def beginsText (s : List Char) : Bool :=
  ["r\"", "r#\"", "r##", "b\"", "b'", "br\"", "br#", "c\"", "cr\"", "cr#"].any (startsWith · s)

/-- The mark at the beginning of a text; the slash of a comment is none. -/
def mark? (s : List Char) : Option Char :=
  if startsWith "//" s || startsWith "/*" s then none else s.head?.filter isMark

/-- Read a mark.  A quote has to belong to a lifetime: a name follows it, and no other quote. -/
def readMark? (s : List Char) : Option (Token × List Char) :=
  (mark? s).bind fun c =>
    let rest := s.drop 1
    if c = '\'' then
      (afterName? rest).bind fun after =>
        if startsWith "'" after || (startsWith "#" after && !startsWith "r#" rest) then none
        else some (.mark c true, rest)
    else some (.mark c (mark? rest).isSome, rest)

/-- Read a token that is no bracket. -/
def readLeaf? (s : List Char) : Option (Token × List Char) :=
  ((afterLiteral? s).map fun rest => (.literal (taken s rest), rest)) <|> readMark? s <|>
    (if beginsText s then none
      else (afterName? s).map fun rest => (.word (taken s rest), rest))

/-- The bracket that a character opens. -/
def Bracket.ofOpening? (c : Char) : Option Bracket :=
  [Bracket.round, .square, .curly].find? fun b => b.opening == c

/-- The bracket that a character closes. -/
def Bracket.ofClosing? (c : Char) : Option Bracket :=
  [Bracket.round, .square, .curly].find? fun b => b.closing == c

/-- The tokens of a text in which some brackets are open, innermost first.  Every token takes a
character at least, so that their number is limited. -/
def readTokens : Nat → List Bracket → List Char → Option (List Token)
  | 0, _, _ => none
  | limit + 1, opened, s =>
      let s := skipGap (s.length + 1) s
      match readDocumentation? s with
      | some (tokens, rest) => (readTokens limit opened rest).map (tokens ++ ·)
      | none =>
          match s with
          | [] => if opened.isEmpty then some [] else none
          | c :: rest =>
              match Bracket.ofOpening? c with
              | some b => (readTokens limit (b :: opened) rest).map (.opening b :: ·)
              | none =>
                  match Bracket.ofClosing? c with
                  | some b =>
                      match opened with
                      | b' :: opened =>
                          if b = b' then (readTokens limit opened rest).map (.closing b :: ·)
                          else none
                      | [] => none
                  | none =>
                      (readLeaf? (c :: rest)).bind fun (token, rest) =>
                        (readTokens limit opened rest).map (token :: ·)

/-- The tokens of a text, in which a byte order mark may stand first. -/
def tokens? (s : List Char) : Option (List Token) :=
  let s := if s.head? == some '\ufeff' then s.drop 1 else s
  readTokens (s.length + 1) [] s

end Declaration
end Determinization
