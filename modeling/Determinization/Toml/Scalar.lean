import Determinization.Text.Listing

/-!
# Numbers and dates

No setting is a number or a date, but such a value may stand where a value is skipped, so its form
matters and its value does not.  `isNumber` and `isMoment` say which unquoted words have a form that
TOML knows:

* a decimal number with an optional sign, fraction and exponent, where only zero begins with zero;
* a whole number in base sixteen, eight or two, which has no sign;
* an infinity, or what is not a number;
* a date, a time, or both with an optional distance from universal time.

Digits may be grouped by low lines, each of which stands between two digits.  A whole number is told
by its first digits.  Where a low line follows them, the rest of the word is looked at for its low
lines only, because no value is made of it; and where the base is given, there may be no digits at
all.
-/

namespace Determinization
namespace Toml

/-! ## Numbers -/

/-- A text without the sign that it may begin with. -/
def unsigned : List Char → List Char
  | '+' :: s => s
  | '-' :: s => s
  | s => s

/-- Is the character a digit in base sixteen? -/
def isHexDigit (c : Char) : Bool :=
  c.isDigit || (decide ('a' ≤ c) && decide (c ≤ 'f')) || (decide ('A' ≤ c) && decide (c ≤ 'F'))

/-- Does every low line stand between two digits? -/
def isGrouped (isDigit : Char → Bool) (s : List Char) : Bool :=
  let groups := Text.pieces '_' s
  (groups.drop 1).all (fun group => group.head?.any isDigit) &&
    groups.dropLast.all fun group => group.getLast?.any isDigit

/-- A digit in base ten, or a low line. -/
def isDigitOrLine (c : Char) : Bool := c.isDigit || c == '_'

/-- Are these digits in base ten, low lines aside? -/
def isDigits (s : List Char) : Bool := s.all isDigitOrLine && s.any Char.isDigit

/-- Are these the digits of a whole number in base ten, low lines aside?  Only zero itself begins
with zero. -/
def isWhole (s : List Char) : Bool :=
  isDigits s && (s.head? != some '0' || s.length == 1)

/-- Does the fraction or the exponent of a number begin with this character? -/
def isPointOrMark (c : Char) : Bool := c == '.' || c == 'e' || c == 'E'

/-- Is this a number in base ten without a sign, low lines aside? -/
def isReal (s : List Char) : Bool :=
  let isMark (c : Char) : Bool := c == 'e' || c == 'E'
  let mantissa := s.takeWhile fun c => !isMark c
  let exponent := s.dropWhile fun c => !isMark c
  (exponent.isEmpty || isDigits (unsigned (exponent.drop 1))) &&
    match Text.pieces '.' mantissa with
    | [whole] => isWhole whole
    | [whole, fraction] => isWhole whole && isDigits fraction
    | _ => false

/-- Is this a number in base ten?  In a whole number the low lines stand between digits of any base,
and nothing else is asked of what follows the first of them. -/
def isDecimal (s : List Char) : Bool :=
  let number := unsigned s
  let rest := number.dropWhile Char.isDigit
  if rest.any isPointOrMark then isReal number && isGrouped Char.isDigit number
  else
    (rest.isEmpty || rest.head? == some '_') && !rest.contains ' ' &&
      isWhole (number.takeWhile isDigitOrLine) && isGrouped isHexDigit number

/-- Are these digits of a base, if any, in groups that single low lines separate? -/
def isDigitsOf (isDigit : Char → Bool) (s : List Char) : Bool :=
  s.isEmpty || (Text.pieces '_' s).all fun group => !group.isEmpty && group.all isDigit

/-- Is this a whole number that begins with the mark of its base? -/
def isBased : List Char → Bool
  | '0' :: 'x' :: s => isDigitsOf isHexDigit s
  | '0' :: 'o' :: s => isDigitsOf (fun c => decide ('0' ≤ c) && decide (c ≤ '7')) s
  | '0' :: 'b' :: s => isDigitsOf (fun c => c == '0' || c == '1') s
  | _ => false

/-- Is this a number? -/
def isNumber (s : List Char) : Bool :=
  isBased s || isDecimal s || unsigned s == ['i', 'n', 'f'] || unsigned s == ['n', 'a', 'n']

/-! ## Dates -/

/-- The number that a text of so many digits stands for. -/
def digitsValue? (count : Nat) (s : List Char) : Option Nat :=
  if s.length = count ∧ s.all Char.isDigit then some (Nat.ofDigitChars 10 s 0) else none

/-- Does a text of so many digits stand for a number up to a bound? -/
def isUpTo (count bound : Nat) (s : List Char) : Bool :=
  (digitsValue? count s).any fun n => decide (n ≤ bound)

/-- The days of a month, the months being counted from one. -/
def daysOf (year month : Nat) : Nat :=
  if month = 2 then
    if year % 4 = 0 ∧ (year % 100 ≠ 0 ∨ year % 400 = 0) then 29 else 28
  else if month = 4 ∨ month = 6 ∨ month = 9 ∨ month = 11 then 30
  else 31

/-- Is this a date of the calendar? -/
def isDate (s : List Char) : Bool :=
  match (Text.pieces '-' s) with
  | [y, m, d] =>
      match digitsValue? 4 y, digitsValue? 2 m, digitsValue? 2 d with
      | some y, some m, some d => decide (1 ≤ m ∧ m ≤ 12 ∧ 1 ≤ d ∧ d ≤ daysOf y m)
      | _, _, _ => false
  | _ => false

/-- Are these seconds, perhaps with a fraction?  A minute may have a leap second. -/
def isSeconds (s : List Char) : Bool :=
  match Text.pieces '.' s with
  | [whole] => isUpTo 2 60 whole
  | [whole, fraction] => isUpTo 2 60 whole && !fraction.isEmpty && fraction.all Char.isDigit
  | _ => false

/-- Is this a time of the day?  The seconds may be missing. -/
def isTime (s : List Char) : Bool :=
  match Text.pieces ':' s with
  | [h, m] => isUpTo 2 23 h && isUpTo 2 59 m
  | [h, m, sec] => isUpTo 2 23 h && isUpTo 2 59 m && isSeconds sec
  | _ => false

/-- Is this a distance from universal time, or nothing? -/
def isOffset : List Char → Bool
  | [] => true
  | ['Z'] => true
  | ['z'] => true
  | c :: s =>
      (c == '+' || c == '-') &&
        match Text.pieces ':' s with
        | [h, m] => isUpTo 2 23 h && isUpTo 2 59 m
        | _ => false

/-- Is this a time of the day with a distance from universal time, if it has one? -/
def isZonedTime (s : List Char) : Bool :=
  let beginsOffset (c : Char) : Bool := c == 'Z' || c == 'z' || c == '+' || c == '-'
  isTime (s.takeWhile fun c => !beginsOffset c) && isOffset (s.dropWhile fun c => !beginsOffset c)

/-- Is this a date, a time, or a date and a time?  Between the two stands a letter or a space. -/
def isMoment (s : List Char) : Bool :=
  isTime s ||
    (isDate (s.take 10) &&
      match s.drop 10 with
      | [] => true
      | c :: time => (c == 'T' || c == 't' || c == ' ') && isZonedTime time)

end Toml
end Determinization
