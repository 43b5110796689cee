import Determinization.Text.Invisible

/-!
# Quoted texts in messages

Messages show characters and texts between quotes, with everything that a reader could not see
written as an escape: the quote itself and the backslash after a backslash, the common controls by
a letter, and all other invisible characters by their code point, as in U+00A0 becoming `\u{a0}`.
Letters, ideographs and pictographs stand for themselves.
-/

namespace Determinization
namespace Text

/-- The digits of a number in base sixteen, in lower case and without padding. -/
def hexDigits (n : Nat) : List Char := Nat.toDigits 16 n

/-- What stands between the quotes for one character. -/
def escape (quote c : Char) : List Char :=
  match c with
  | '\\' => ['\\', '\\']
  | '\n' => ['\\', 'n']
  | '\r' => ['\\', 'r']
  | '\t' => ['\\', 't']
  | '\x00' => ['\\', '0']
  | _ =>
      if c = quote then ['\\', c]
      else if isInvisible c then ['\\', 'u', '\x7b'] ++ hexDigits c.toNat ++ ['\x7d']
      else [c]

/-- A text between double quotes. -/
def quoted (s : List Char) : List Char := ['"'] ++ s.flatMap (escape '"') ++ ['"']

/-- A character between single quotes. -/
def quotedChar (c : Char) : List Char := ['\''] ++ escape '\'' c ++ ['\'']

end Text
end Determinization
