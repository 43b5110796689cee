import Determinization.Text.Range

/-!
# Blank characters

Two notions of blank meet in this library.  Unicode lists twenty-five characters as white space;
none of them can be a symbol of an alphabet, and they are what is cut from the ends of a text.
The grammar of encodings, on the other hand, skips only four: the space, the tab, the carriage
return and the line feed.  The first notion is `isBlank`, the second `isSkipped`, and the grammar's
blanks are blank (`isBlank_of_isSkipped`), while the converse fails, for instance at U+00A0.
-/

namespace Determinization
namespace Text

/-- Unicode's white space. -/
def blankRanges : Ranges :=
  [(0x9, 0xD), (0x20, 0x20), (0x85, 0x85), (0xA0, 0xA0), (0x1680, 0x1680), (0x2000, 0x200A),
    (0x2028, 0x2029), (0x202F, 0x202F), (0x205F, 0x205F), (0x3000, 0x3000)]

/-- Is the character white space? -/
def isBlank (c : Char) : Bool := inRanges blankRanges c.toNat

theorem areAscending_blankRanges : blankRanges.areAscending = true := by decide

/-- Is the character a blank that the grammar of encodings skips? -/
def isSkipped (c : Char) : Bool := c == ' ' || c == '\t' || c == '\r' || c == '\n'

theorem isBlank_of_isSkipped {c : Char} (h : isSkipped c = true) : isBlank c = true := by
  simp only [isSkipped, Bool.or_eq_true, beq_iff_eq] at h
  rcases h with ((rfl | rfl) | rfl) | rfl <;> decide

/-- A text without its leading white space. -/
def trimStart (s : List Char) : List Char := s.dropWhile isBlank

/-- A text without its trailing white space. -/
def trimEnd (s : List Char) : List Char := (trimStart s.reverse).reverse

/-- A text without the white space around it. -/
def trim (s : List Char) : List Char := trimEnd (trimStart s)

end Text
end Determinization
