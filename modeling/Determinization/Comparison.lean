import Determinization.Machine
import Determinization.Text.Quoted

/-!
# Comparing languages on short words

Two machines over the same alphabet are compared on all words below a length.  The words come
shortest first, and words of one length in lexicographic order, so the first word on which the
machines differ is the shortest one and the first of its length.

The words of a length are the product of as many copies of the alphabet (`cartesianProduct`), apart
from the empty word, which stands for itself.  There are many of them, so the comparison does not
list them: it looks at one after the other and stops at the first difference.

## Main statements

* `findWord?_eq_findSome?`: looking for a word gives what looking through the list of all words
  gives.
* `allWords_eq_all`: so does testing all words.
-/

namespace Determinization

/-- The lists that have one element of each of the given lists.  The last element changes first. -/
def cartesianProduct {β : Type} : List (List β) → List (List β)
  | [] => [[]]
  | l :: ls => l.flatMap fun b => (cartesianProduct ls).map (b :: ·)

/-- The words of a length over some characters, in lexicographic order of their positions. -/
def wordsOfLength (characters : List Char) : Nat → List (List Char)
  | 0 => [[]]
  | n + 1 => cartesianProduct (List.replicate (n + 1) characters)

theorem wordsOfLength_eq (characters : List Char) (n : Nat) :
    wordsOfLength characters n = cartesianProduct (List.replicate n characters) := by
  cases n <;> rfl

/-- The words shorter than a bound, shortest first. -/
def wordsBelow (characters : List Char) (bound : Nat) : List (List Char) :=
  (List.range bound).flatMap (wordsOfLength characters)

/-- What a test says of the first list of a product for which it says something. -/
def findInProduct? {α β : Type} : List (List β) → (List β → Option α) → Option α
  | [], test => test []
  | l :: ls, test => l.findSome? fun b => findInProduct? ls fun rest => test (b :: rest)

/-- What a test says of the first word of a length for which it says something. -/
def findWordOfLength? {α : Type} (characters : List Char) (n : Nat) (test : List Char → Option α) :
    Option α :=
  match n with
  | 0 => test []
  | n + 1 => findInProduct? (List.replicate (n + 1) characters) test

/-- What a test says of the first word for which it says something, among the words of so many
lengths from a given one on. -/
def findWordFrom? {α : Type} (characters : List Char) (test : List Char → Option α) :
    Nat → Nat → Option α
  | _, 0 => none
  | n, count + 1 =>
      match findWordOfLength? characters n test with
      | some a => some a
      | none => findWordFrom? characters test (n + 1) count

/-- What a test says of the first word below a bound for which it says something. -/
def findWord? {α : Type} (characters : List Char) (bound : Nat) (test : List Char → Option α) :
    Option α :=
  findWordFrom? characters test 0 bound

theorem findSome?_flatMap_cons {α β : Type} (l : List β) (lists : List (List β))
    (test : List β → Option α) :
    (l.flatMap fun b => lists.map (b :: ·)).findSome? test =
      l.findSome? fun b => lists.findSome? fun rest => test (b :: rest) := by
  induction l with
  | nil => rfl
  | cons b l ih =>
    rw [List.flatMap_cons, List.findSome?_append, ih, List.findSome?_map, List.findSome?_cons]
    rw [show (test ∘ fun rest => b :: rest) = fun rest => test (b :: rest) from rfl]
    cases lists.findSome? fun rest => test (b :: rest) <;> rfl

theorem findInProduct?_eq_findSome? {α β : Type} (lists : List (List β))
    (test : List β → Option α) :
    findInProduct? lists test = (cartesianProduct lists).findSome? test := by
  induction lists generalizing test with
  | nil => simp [findInProduct?, cartesianProduct]
  | cons l lists ih => simp only [findInProduct?, cartesianProduct, findSome?_flatMap_cons, ih]

theorem findWordOfLength?_eq_findSome? {α : Type} (characters : List Char) (n : Nat)
    (test : List Char → Option α) :
    findWordOfLength? characters n test = (wordsOfLength characters n).findSome? test := by
  cases n with
  | zero => simp [findWordOfLength?, wordsOfLength]
  | succ n => rw [findWordOfLength?, findInProduct?_eq_findSome?, wordsOfLength]

theorem findWordFrom?_eq_findSome? {α : Type} (characters : List Char)
    (test : List Char → Option α) (n count : Nat) :
    findWordFrom? characters test n count =
      ((List.range' n count).flatMap (wordsOfLength characters)).findSome? test := by
  induction count generalizing n with
  | zero => rfl
  | succ count ih =>
    rw [findWordFrom?, List.range'_succ, List.flatMap_cons, List.findSome?_append,
      findWordOfLength?_eq_findSome?, ih]
    cases (wordsOfLength characters n).findSome? test <;> rfl

theorem findWord?_eq_findSome? {α : Type} (characters : List Char) (bound : Nat)
    (test : List Char → Option α) :
    findWord? characters bound test = (wordsBelow characters bound).findSome? test := by
  rw [findWord?, findWordFrom?_eq_findSome?, wordsBelow, List.range_eq_range']

/-- Do all words below a bound pass a test? -/
def allWords (characters : List Char) (bound : Nat) (p : List Char → Bool) : Bool :=
  (findWord? characters bound fun word => if p word then none else some word).isNone

theorem allWords_eq_all (characters : List Char) (bound : Nat) (p : List Char → Bool) :
    allWords characters bound p = (wordsBelow characters bound).all p := by
  rw [allWords, findWord?_eq_findSome?]
  induction wordsBelow characters bound with
  | nil => rfl
  | cons word words ih =>
    rw [List.findSome?_cons, List.all_cons]
    cases p word
    · rfl
    · exact ih

/-- How two machines are found to differ. -/
inductive Difference where
  /-- Their alphabets are not the same. -/
  | alphabets (left right : Alphabet)
  /-- The first machine accepts the word and the second does not. -/
  | onlyLeft (word : List Char)
  /-- The second machine accepts the word and the first does not. -/
  | onlyRight (word : List Char)
  deriving DecidableEq

namespace Difference

/-- The message of a difference, in which the machines are called `a` and `b`. -/
def message : Difference → List Char
  | alphabets left right =>
      "Alphabets are not the same: ".toList ++ left.text ++ " and ".toList ++ right.text
  | onlyLeft word =>
      Text.quoted word ++ (" is accepted by automaton \x60a\x60 but not by automaton \x60b\x60. " ++
        "Thus their languages are not equal.").toList
  | onlyRight word =>
      Text.quoted word ++ (" is accepted by automaton \x60b\x60 but not by automaton \x60a\x60. " ++
        "Thus their languages are not equal.").toList

end Difference

namespace Machine

/-- How two machines differ on a word, if they do. -/
def differenceOn? (m n : Machine) (word : List Char) : Option Difference :=
  match m.accepts word, n.accepts word with
  | true, false => some (.onlyLeft word)
  | false, true => some (.onlyRight word)
  | _, _ => none

/-- The first difference of two machines on words below a bound. -/
def difference? (m n : Machine) (bound : Nat) : Option Difference :=
  if m.alphabet ≠ n.alphabet then some (.alphabets m.alphabet n.alphabet)
  else findWord? m.alphabet.toList bound (m.differenceOn? n)

/-- Have two machines the same alphabet, and do they accept the same words below a bound? -/
def sameLanguage (m n : Machine) (bound : Nat) : Bool :=
  if m.alphabet ≠ n.alphabet then false
  else allWords m.alphabet.toList bound fun word => m.accepts word == n.accepts word

end Machine
end Determinization
