import Determinization.Declaration.Token

/-!
# Literals of a declaration

Literals are kept as they are written, so all that matters is where they end.  The functions of this
module take a text and answer with what follows the literal at its beginning, if there is one.

Texts stand between double quotes, with escapes or, after the letter `r`, without any and with
number signs around the quotes; a letter `b` or `c` before them asks for bytes, which are written in
ASCII, or for a text with an end mark, which therefore cannot occur in the text.  Characters stand
between single quotes.  All of them, and numbers, may have a word attached as a suffix.
-/

namespace Determinization
namespace Declaration

/-- What follows the word at the beginning of a text. -/
def afterWord? : List Char → Option (List Char)
  | c :: s => if isWordStart c then some (s.dropWhile isWordPart) else none
  | [] => none

/-- What follows an optional suffix. -/
def afterSuffix (s : List Char) : List Char := (afterWord? s).getD s

/-- What follows a beginning that is known. -/
def after? (start : String) (s : List Char) : Option (List Char) :=
  if start.toList.isPrefixOf s then some (s.drop start.length) else none

/-! ## Escapes -/

/-- The value of an escaped code point and what follows its closing brace: there are one digit to
six digits, after the first of which there may be underscores. -/
def readCodePoint? (value count : Nat) : List Char → Option (Nat × List Char)
  | [] => none
  | c :: s =>
      if c = '\x7d' then
        if 0 < count && decide value.isValidChar then some (value, s) else none
      else if c = '_' then
        if 0 < count then readCodePoint? value count s else none
      else if isHexDigit c && count < 6 then
        readCodePoint? (16 * value + digitValue c) (count + 1) s
      else none

/-- What a text consists of, which decides what may stand in it and what its escapes may name. -/
inductive TextUse where
  | characters
  | bytes
  /-- Anything but the end mark. -/
  | marked
  deriving DecidableEq

/-- May the character stand in the text as it is? -/
def TextUse.admits (use : TextUse) (c : Char) : Bool :=
  match use with
  | characters => true
  | bytes => decide (c.toNat < 0x80)
  | marked => c != '\x00'

/-- What follows an escape, given what follows its backslash. -/
def afterEscape? (use : TextUse) : List Char → Option (List Char)
  | 'x' :: a :: b :: s =>
      let small := use != .characters || digitValue a < 8
      let isEndMark := use == .marked && a == '0' && b == '0'
      if small && isHexDigit a && isHexDigit b && !isEndMark then some s else none
  | 'u' :: '\x7b' :: s =>
      if use = .bytes then none
      else
        (readCodePoint? 0 0 s).bind fun (value, s) =>
          if use = .marked ∧ value = 0 then none else some s
  | '0' :: s => if use = .marked then none else some s
  | c :: s => if "nrt\\'\"".toList.contains c then some s else none
  | [] => none

/-- What follows the spaces after a backslash at the end of a line; something has to follow. -/
def afterHiddenBreak? : List Char → Option (List Char)
  | '\r' :: '\n' :: s => afterHiddenBreak? s
  | c :: s =>
      if c = '\r' then none
      else if c = ' ' || c = '\t' || c = '\n' then afterHiddenBreak? s
      else some (c :: s)
  | [] => none

/-! ## Texts and characters -/

/-- What follows the closing quote of a text with escapes, in at most so many steps. -/
def afterCooked? (use : TextUse) : Nat → List Char → Option (List Char)
  | 0, _ => none
  | limit + 1, s =>
      match s with
      | [] => none
      | '"' :: s => some s
      | '\r' :: '\n' :: s => afterCooked? use limit s
      | '\r' :: _ => none
      | '\\' :: '\n' :: s => (afterHiddenBreak? ('\n' :: s)).bind (afterCooked? use limit)
      | '\\' :: '\r' :: s => (afterHiddenBreak? ('\r' :: s)).bind (afterCooked? use limit)
      | '\\' :: s => (afterEscape? use s).bind (afterCooked? use limit)
      | c :: s => if use.admits c then afterCooked? use limit s else none

/-- What follows the closing quote and the number signs of a text without escapes. -/
def afterRawEnd? (use : TextUse) (ending : List Char) : List Char → Option (List Char)
  | [] => none
  | '\r' :: '\n' :: s => afterRawEnd? use ending s
  | '\r' :: _ => none
  | c :: s =>
      if ending.isPrefixOf (c :: s) then some ((c :: s).drop ending.length)
      else if use.admits c then afterRawEnd? use ending s
      else none

/-- What follows a text without escapes, given what follows the letter `r`. -/
def afterRaw? (use : TextUse) (s : List Char) : Option (List Char) :=
  let signs := s.takeWhile (· == '#')
  match s.drop signs.length with
  | '"' :: s => if signs.length ≤ 255 then afterRawEnd? use ('"' :: signs) s else none
  | _ => none

/-- What follows a text. -/
def afterText? (s : List Char) : Option (List Char) :=
  let cooked (start : String) (use : TextUse) :=
    (after? start s).bind fun s => afterCooked? use (s.length + 1) s
  let raw (start : String) (use : TextUse) := (after? start s).bind (afterRaw? use)
  (cooked "\"" .characters <|> raw "r" .characters <|> cooked "b\"" .bytes <|> raw "br" .bytes <|>
    cooked "c\"" .marked <|> raw "cr" .marked).map afterSuffix

/-- What follows the closing quote of a character, given what follows its opening quote. -/
def afterQuoted? (use : TextUse) (s : List Char) : Option (List Char) :=
  let inner := match s with
    | '\\' :: s => afterEscape? use s
    | c :: s => if use.admits c then some s else none
    | [] => none
  match inner with
  | some ('\'' :: s) => some s
  | _ => none

/-- What follows a character. -/
def afterCharacter? (s : List Char) : Option (List Char) :=
  let quoted (start : String) (use : TextUse) := (after? start s).bind (afterQuoted? use)
  (quoted "b'" .bytes <|> quoted "'" .characters).map afterSuffix

/-! ## Numbers -/

/-- What follows a number's suffix, which has to be the end of the word. -/
def afterNumberSuffix (s : List Char) : Option (List Char) :=
  let s := afterSuffix s
  match s with
  | c :: _ => if isWordPart c then none else some s
  | [] => some s

/-- Is the character a decimal digit or an underscore? -/
def isDigitPart (c : Char) : Bool := c.isDigit || c == '_'

/-- What follows the exponent after the letter that announces it: a sign, and digits. -/
def afterExponent? (s : List Char) : Option (List Char) :=
  let unsigned := match s.dropWhile (· == '_') with
    | '+' :: s => s
    | '-' :: s => s
    | s => s
  if (unsigned.takeWhile isDigitPart).any Char.isDigit then some (unsigned.dropWhile isDigitPart)
  else none

/-- What follows the digits of a number with a point or an exponent. -/
def afterFloatDigits? (s : List Char) : Option (List Char) :=
  match s with
  | c :: t =>
      if c.isDigit then
        match t.dropWhile isDigitPart with
        | '.' :: s =>
            if (s.head?.map fun c => c == '.' || isWordStart c).getD false then none
            else
              match s.dropWhile isDigitPart with
              | 'e' :: r => some ((afterExponent? r).getD ('e' :: r))
              | 'E' :: r => some ((afterExponent? r).getD ('E' :: r))
              | r => some r
        | 'e' :: s => afterExponent? s
        | 'E' :: s => afterExponent? s
        | _ => none
      else none
  | [] => none

/-- The base of a whole number and what follows the sign of the base. -/
def baseOf : List Char → Nat × List Char
  | '0' :: 'x' :: s => (16, s)
  | '0' :: 'o' :: s => (8, s)
  | '0' :: 'b' :: s => (2, s)
  | s => (10, s)

/-- Is the character a digit in base ten, or in base sixteen if that is the base? -/
def isNumberPart (base : Nat) (c : Char) : Bool :=
  isDigitPart c || (base == 16 && isHexDigit c)

/-- What follows the digits of a whole number. -/
def afterWholeDigits? (s : List Char) : Option (List Char) :=
  let (base, s) := baseOf s
  let digits := s.takeWhile (isNumberPart base)
  let tooLarge (c : Char) : Bool := c.isDigit && base ≤ c.toNat - 48
  if (base == 10 && digits.head? == some '_') || digits.any tooLarge || digits.all (· == '_') then
    none
  else some (s.dropWhile (isNumberPart base))

/-- What follows a number. -/
def afterNumber? (s : List Char) : Option (List Char) :=
  (afterFloatDigits? s).bind afterNumberSuffix <|> (afterWholeDigits? s).bind afterNumberSuffix

/-- What follows a literal. -/
def afterLiteral? (s : List Char) : Option (List Char) :=
  afterText? s <|> afterCharacter? s <|> afterNumber? s

end Declaration
end Determinization
