/-!
# Control sequences

A text for a terminal may hold control sequences, which say how it looks and show nothing
themselves.  `visible` is what is left of a text without them, and without other controls: of these
only the tab and the ends of lines and pages are shown.

A control sequence begins with the escape character.  What follows decides its kind and its end:

* after a left bracket, it ends with a letter or another character beyond the digits and their
  signs;
* after a right bracket, it is a command and ends with the bell;
* after `P`, it is a string for the device, whose head is read in parts;
* after `X`, `^` or `_`, it is a string that nobody reads;
* otherwise it ends with the character after the escape, spaces and signs not counted.

A string for the device or for nobody has no end of its own that a text can spell with a character:
it ends with the byte 156, which only occurs inside longer characters.  The escape character ends
every sequence and begins the next.
-/

namespace Determinization
namespace Text

/-- What kind of control sequence the next character belongs to. -/
inductive ControlMode where
  /-- To none. -/
  | plain
  /-- To one of which only the escape character has been read. -/
  | escape
  /-- To one that ends with its next letter, digit or bracket. -/
  | short
  /-- To one that began with a left bracket. -/
  | bracket
  /-- To the head of a string for the device. -/
  | deviceHead
  /-- To the head of a string for the device, among its numbers. -/
  | deviceNumbers
  /-- To the head of a string for the device, after its numbers. -/
  | deviceSigns
  /-- To a string for the device or for nobody. -/
  | string
  /-- To a command. -/
  | command
  deriving DecidableEq

/-- Is the character a tab or the end of a line or a page? -/
def isLayout (c : Char) : Bool := c == '\t' || c == '\n' || c == '\x0c' || c == '\r'

/-- Is the character shown where no control sequence is open? -/
def isPrinted (c : Char) : Bool := isLayout c || (decide (' ' ≤ c) && c != '\x7f')

/-- Does the encoding of a character in bytes hold the byte 156 after its first one? -/
def holdsStringEnd (c : Char) : Bool :=
  let n := c.toNat
  n % 0x40 == 0x1C || (decide (0x800 ≤ n) && n / 0x40 % 0x40 == 0x1C) ||
    (decide (0x10000 ≤ n) && n / 0x1000 % 0x40 == 0x1C)

namespace ControlMode

/-- Is the character shown where the mode is in force? -/
def shows (mode : ControlMode) (c : Char) : Bool :=
  match mode with
  | plain => isPrinted c
  | escape => isLayout c
  | short => isLayout c
  | bracket => isLayout c
  | _ => false

/-- The mode after a printable character of ASCII. -/
def afterPrintable (mode : ControlMode) (c : Char) : ControlMode :=
  match mode with
  | plain => plain
  | escape =>
      if c < '0' then short
      else if c = '[' then bracket
      else if c = ']' then command
      else if c = 'P' then deviceHead
      else if c = 'X' ∨ c = '^' ∨ c = '_' then string
      else plain
  | short => if c < '0' then short else plain
  | bracket => if c < '@' then bracket else plain
  | deviceHead => if c < '0' then deviceSigns else if c < '@' then deviceNumbers else string
  | deviceNumbers => if c < '0' then deviceSigns else if c < '<' then deviceNumbers else string
  | deviceSigns => if c < '0' then deviceSigns else string
  | string => string
  | command => command

/-- The mode after a character that is not shown. -/
def after (mode : ControlMode) (c : Char) : ControlMode :=
  if c = '\x1b' then escape
  else if c = '\x18' ∨ c = '\x1a' then plain
  else if c < ' ' ∨ c = '\x7f' then
    if mode = command ∧ c = '\x07' then plain else mode
  else if c < '\x7f' then mode.afterPrintable c
  else if mode = string ∧ holdsStringEnd c = true then plain
  else mode

end ControlMode

/-- What is shown of a text, given the mode and whether the character before it was shown.  What
follows a shown character is shown up to the next control character, also where a line ends inside
a control sequence; a character beyond ASCII then ends the sequence. -/
def visibleFrom : ControlMode → Bool → List Char → List Char
  | _, _, [] => []
  | mode, showing, c :: s =>
      if mode.shows c || (showing && isPrinted c) then
        c :: visibleFrom (if '\x7f' < c then .plain else mode) true s
      else visibleFrom (mode.after c) false s

/-- What is shown of a text. -/
def visible (s : List Char) : List Char := visibleFrom .plain false s

end Text
end Determinization
