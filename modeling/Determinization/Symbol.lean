import Determinization.SortedSet
import Determinization.Text.Blank
import Determinization.Text.Listing

/-!
# Symbols and alphabets

The label of a transition is a character or the empty word `ε`.  An alphabet is a finite set of
characters; `ε` is not a character and so never a member, but every alphabet admits it as a label.

The textual encoding separates its parts by blanks, commas, semicolons and slashes, so these
characters cannot be symbols of an automaton (`Symbol.isEncodable`).
-/

namespace Determinization

/-- The label of a transition: the empty word or a character. -/
inductive Symbol where
  | epsilon
  | char (c : Char)
  deriving DecidableEq

namespace Symbol

/-- The place of a symbol in the order: `ε` first, then the characters by code point. -/
def rank : Symbol → Nat
  | epsilon => 0
  | char c => c.toNat + 1

theorem rank_injective : ∀ {x y : Symbol}, x.rank = y.rank → x = y
  | epsilon, epsilon, _ => rfl
  | char _, char _, h => congrArg char (Char.toNat_inj.1 (Nat.succ.inj h))

instance : Ordered Symbol := Ordered.lift rank rank_injective

/-- Is the symbol the empty word? -/
def isEpsilon : Symbol → Bool
  | epsilon => true
  | char _ => false

theorem isEpsilon_iff : ∀ {x : Symbol}, x.isEpsilon = true ↔ x = epsilon
  | epsilon => iff_of_true rfl rfl
  | char _ => iff_of_false Bool.noConfusion Symbol.noConfusion

/-- The character of a symbol; the empty word has none. -/
def char? : Symbol → Option Char
  | epsilon => none
  | char c => some c

theorem char?_eq_none_iff : ∀ {x : Symbol}, x.char? = none ↔ x = epsilon
  | epsilon => iff_of_true rfl rfl
  | char c => iff_of_false (Option.some_ne_none c) Symbol.noConfusion

/-- The symbol of an optional character, the empty word for a missing one. -/
def ofChar? : Option Char → Symbol
  | none => epsilon
  | some c => char c

/-- Can the character be a symbol of an encoded automaton?  Blanks and separators cannot. -/
def isEncodable (c : Char) : Bool := !Text.isBlank c && c != ',' && c != ';' && c != '/'

/-- The symbol as the encoding writes it: nothing for the empty word. -/
def encode : Symbol → List Char
  | epsilon => []
  | char c => [c]

/-- The symbol as messages, notation and drawings show it. -/
def text : Symbol → List Char
  | epsilon => ['ε']
  | char c => [c]

end Symbol

/-- A finite set of characters. -/
abbrev Alphabet := SortedSet Char

namespace Alphabet

/-- May the symbol label a transition of an automaton over this alphabet? -/
def admits (A : Alphabet) : Symbol → Bool
  | .epsilon => true
  | .char c => decide (c ∈ A)

/-- All labels over the alphabet: the empty word, then the characters in order. -/
def labels (A : Alphabet) : List Symbol := .epsilon :: A.toList.map .char

/-- The alphabet as the encoding writes it: the characters separated by spaces. -/
def encode (A : Alphabet) : List Char := Text.join [' '] (A.toList.map fun c => [c])

/-- The alphabet as messages and notation show it. -/
def text (A : Alphabet) : List Char := Text.braced (A.toList.map fun c => [c])

@[simp] theorem admits_epsilon (A : Alphabet) : A.admits .epsilon = true := rfl

@[simp] theorem admits_char (A : Alphabet) (c : Char) : A.admits (.char c) = true ↔ c ∈ A := by
  simp [admits]

theorem mem_labels {A : Alphabet} {x : Symbol} : x ∈ A.labels ↔ A.admits x = true := by
  cases x <;> simp [labels]

end Alphabet

end Determinization
