import Determinization.Declaration.Token

/-!
# Reading tokens

A reading takes tokens from the front of a list, or fails.  What it takes is usually also its
result, because a declaration's types, values and attributes are copied into the code that is made
from it.

Signs of several characters are several marks of which all but the last are joined to the next one,
so that a shorter sign is always seen where a longer one stands: the two marks of `::` begin with
the mark of `:`.  What stands between brackets is read as a list of its own and has to be read up
to its end (`inside`).
-/

namespace Determinization
namespace Declaration

/-- A name: a word that is no keyword. -/
structure Name where
  text : List Char
  deriving DecidableEq

/-- The words that are no names, unless they are marked as raw. -/
def keywords : List String :=
  ["_", "abstract", "as", "async", "await", "become", "box", "break", "const", "continue", "crate",
    "do", "dyn", "else", "enum", "extern", "false", "final", "fn", "for", "if", "impl", "in", "let",
    "loop", "macro", "match", "mod", "move", "mut", "override", "priv", "pub", "ref", "return",
    "Self", "self", "static", "struct", "super", "trait", "true", "try", "type", "typeof", "unsafe",
    "unsized", "use", "virtual", "where", "while", "yield"]

/-- The name that a word is. -/
def Name.ofWord? (text : List Char) : Option Name :=
  if keywords.any fun k => k.toList == text then none else some ⟨text⟩

/-- The name as a token. -/
def Name.token (n : Name) : Token := .word n.text

/-- The name without the mark of a raw name. -/
def Name.bare (n : Name) : List Char :=
  if "r#".toList.isPrefixOf n.text then n.text.drop 2 else n.text

/-- The name made of a beginning and the bare name. -/
def Name.joined (start : String) (n : Name) : Name := ⟨start.toList ++ n.bare⟩

/-- A way to take tokens from the front of a list, which may fail. -/
abbrev Reading (α : Type) := StateT (List Token) Option α

/-- Is nothing left? -/
def isAtEnd : Reading Bool := do return (← get).isEmpty

/-- Take all that is left. -/
def readRest : Reading (List Token) := do
  let tokens ← get
  set ([] : List Token)
  return tokens

/-! ## Single tokens -/

/-- Does the list begin with a token of this kind? -/
def sees (p : Token → Bool) : Reading Bool := do return ((← get).head?.map p).getD false

/-- Take the first token if it is of this kind. -/
def readToken (p : Token → Bool) : Reading (List Token) := do
  match ← get with
  | t :: rest => if p t then (do set rest; return [t]) else failure
  | [] => failure

/-- Is the token a word with this text? -/
def Token.isWord (text : String) (t : Token) : Bool := t == .word text.toList

/-- Is the token a literal? -/
def Token.isLiteral : Token → Bool
  | .literal _ => true
  | _ => false

/-- Is the token a comma? -/
def Token.isComma : Token → Bool
  | .mark c _ => c == ','
  | _ => false

/-- Does the list begin with this word? -/
def seesWord (text : String) : Reading Bool := sees (Token.isWord text)

/-- Take a word. -/
def readWord (text : String) : Reading (List Token) := readToken (Token.isWord text)

/-- Take a word if it is there. -/
def readWord? (text : String) : Reading (List Token) := do
  if ← seesWord text then readWord text else return []

/-- Take a name. -/
def readName : Reading Name := do
  match ← get with
  | .word text :: rest =>
      match Name.ofWord? text with
      | some n => set rest; return n
      | none => failure
  | _ => failure

/-! ## Signs -/

/-- Do the tokens begin with these marks, all but the last of which are joined to the next? -/
def beginsWithMarks : List Char → List Token → Bool
  | [], _ => true
  | c :: cs, .mark c' joint :: rest => c == c' && (cs.isEmpty || joint) && beginsWithMarks cs rest
  | _ :: _, _ => false

/-- Does the list begin with this sign? -/
def seesSign (sign : String) : Reading Bool := do return beginsWithMarks sign.toList (← get)

/-- Take a sign. -/
def readSign (sign : String) : Reading (List Token) := do
  let tokens ← get
  if beginsWithMarks sign.toList tokens then
    set (tokens.drop sign.length)
    return tokens.take sign.length
  else failure

/-- Take a sign if it is there. -/
def readSign? (sign : String) : Reading (List Token) := do
  if ← seesSign sign then readSign sign else return []

/-- Does the list begin with a lifetime: a quote and a word? -/
def seesLifetime : Reading Bool := do
  match ← get with
  | .mark c _ :: .word _ :: _ => return c == '\''
  | _ => return false

/-- Take a lifetime. -/
def readLifetime : Reading (List Token) := do
  let quote ← readSign "'"
  let name ← readToken fun t => match t with
    | .word _ => true
    | _ => false
  return quote ++ name

/-- Take a lifetime if it is there. -/
def readLifetime? : Reading (List Token) := do
  if ← seesLifetime then readLifetime else return []

/-- Is the text a number? -/
def isNumber (text : List Char) : Bool := (text.head?.map Char.isDigit).getD false

/-- Does the list begin with a constant: a literal, a truth value or a negative number? -/
def seesConstant : Reading Bool := do
  match ← get with
  | .literal _ :: _ => return true
  | .word text :: _ => return text == "true".toList || text == "false".toList
  | .mark c _ :: .literal text :: _ => return c == '-' && isNumber text
  | _ => return false

/-- Take a constant. -/
def readConstant : Reading (List Token) := do
  let sign ← readSign? "-"
  let value ← readToken fun t => t.isLiteral || t.isWord "true" || t.isWord "false"
  return sign ++ value

/-! ## Brackets and lists -/

/-- The tokens up to the bracket that closes a given number of open ones, and those after it. -/
def splitClosing : Nat → List Token → Option (List Token × List Token)
  | _, [] => none
  | depth, t :: rest =>
      let add (found : Option (List Token × List Token)) := found.map fun (l, r) => (t :: l, r)
      match t with
      | .opening _ => add (splitClosing (depth + 1) rest)
      | .closing _ =>
          match depth with
          | 0 => some ([], rest)
          | depth + 1 => add (splitClosing depth rest)
      | _ => add (splitClosing depth rest)

/-- The split leaves out the closing bracket and nothing else. -/
theorem eq_of_splitClosing {depth : Nat} {tokens content rest : List Token}
    (h : splitClosing depth tokens = some (content, rest)) :
    ∃ b, tokens = content ++ .closing b :: rest := by
  induction tokens generalizing depth content with
  | nil => simp [splitClosing] at h
  | cons t tokens ih =>
    have step {depth : Nat}
        (h : (splitClosing depth tokens).map (fun (l, r) => (t :: l, r)) = some (content, rest)) :
        ∃ b, t :: tokens = content ++ .closing b :: rest := by
      obtain ⟨⟨l, r⟩, hsplit, heq⟩ := Option.map_eq_some_iff.1 h
      cases heq
      obtain ⟨b, hb⟩ := ih hsplit
      exact ⟨b, by rw [hb, List.cons_append]⟩
    cases t with
    | word text => exact step h
    | literal text => exact step h
    | mark c joint => exact step h
    | opening b => exact step h
    | closing b =>
      cases depth with
      | zero =>
        cases h
        exact ⟨b, rfl⟩
      | succ depth => exact step h

/-- Does the list begin with an opening bracket of this kind? -/
def seesBracket (b : Bracket) : Reading Bool := sees (· == .opening b)

/-- Read what stands between brackets, up to its end. -/
def inside {α : Type} (b : Bracket) (r : Reading α) : Reading α := do
  let _ ← readToken (· == .opening b)
  match splitClosing 0 (← get) with
  | none => failure
  | some (content, rest) =>
      match r.run content with
      | some (a, []) => set rest; return a
      | _ => failure

/-- Take brackets and what stands between them. -/
def readGroup (b : Bracket) (r : Reading (List Token)) : Reading (List Token) := do
  let content ← inside b r
  return [.opening b] ++ content ++ [.closing b]

/-- Take brackets of any kind with anything between them. -/
def readAnyGroup : Reading (List Token) :=
  readGroup .round readRest <|> readGroup .square readRest <|> readGroup .curly readRest

/-- Take items with commas between them up to the end, where one more comma may stand, in at most so
many steps. -/
def readItems (r : Reading (List Token)) : Nat → Reading (List Token)
  | 0 => failure
  | limit + 1 => do
      if ← isAtEnd then return []
      let item ← r
      if ← isAtEnd then return item
      let comma ← readSign ","
      let more ← readItems r limit
      return item ++ comma ++ more

/-- Take items with commas between them up to the end.  Every item takes a token at least. -/
def readListed (r : Reading (List Token)) : Reading (List Token) := do
  readItems r ((← get).length + 1)

end Declaration
end Determinization
