import Determinization.Text.Blank
import Determinization.Text.WordCharacter

/-!
# Tokens of a declaration

A declaration of settings is written in the notation of the code that is made from it, and consists
of words, literals, brackets and marks.  Every punctuation character is a mark of its own, and
remembers whether another one follows it without a gap: two colons in a row are one sign of the
notation only if nothing stands between them.  The quote before the name of a lifetime is a mark
too.

Comments are gaps, with the exception of documentation, which becomes an attribute.
-/

namespace Determinization
namespace Declaration

/-- The three kinds of brackets. -/
inductive Bracket where
  | round
  | square
  | curly
  deriving DecidableEq

/-- The opening bracket. -/
def Bracket.opening : Bracket → Char
  | round => '('
  | square => '['
  | curly => '\x7b'

/-- The closing bracket. -/
def Bracket.closing : Bracket → Char
  | round => ')'
  | square => ']'
  | curly => '\x7d'

/-- A token. -/
inductive Token where
  /-- A name or a keyword, with its mark of a raw name if it has one. -/
  | word (text : List Char)
  /-- A number, a character or a text, as it was written. -/
  | literal (text : List Char)
  /-- A punctuation character; does another one follow at once? -/
  | mark (c : Char) (joint : Bool)
  | opening (b : Bracket)
  | closing (b : Bracket)
  deriving DecidableEq

/-- The token as it is written. -/
def Token.text : Token → List Char
  | word text => text
  | literal text => text
  | mark c _ => [c]
  | opening b => [b.opening]
  | closing b => [b.closing]

/-! ## Character classes -/

/-- Can a word begin with the character? -/
def isWordStart (c : Char) : Bool := c == '_' || Text.mayBeginWord c

/-- Can the character stand inside a word? -/
def isWordPart (c : Char) : Bool := Text.mayContinueWord c

/-- Is the character a mark? -/
def isMark (c : Char) : Bool := "~!@#$%^&*-=+|;:,<.>/?'".toList.contains c

/-- Does a gap between tokens consist of such characters? -/
def isGap (c : Char) : Bool := Text.isBlank c || c == '\u200e' || c == '\u200f'

/-- Is the character a digit in base sixteen? -/
def isHexDigit (c : Char) : Bool :=
  c.isDigit || (decide ('a'.toNat ≤ c.toNat) && decide (c.toNat ≤ 'f'.toNat)) ||
    (decide ('A'.toNat ≤ c.toNat) && decide (c.toNat ≤ 'F'.toNat))

/-- The value of a digit in base sixteen. -/
def digitValue (c : Char) : Nat := if c.isDigit then c.toNat - 48 else (c.toNat ||| 32) - 87

end Declaration
end Determinization
