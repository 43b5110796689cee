import Determinization.Declaration.Literal
import Determinization.Declaration.Reading
import Determinization.Text.Listing

/-!
# Types, expressions and attributes

A declaration contains types, expressions and attributes that are copied without being understood.
What has to be found out about them is where they end, so they are read by their grammar: a comma
between angle brackets does not end a type, while `<` in an expression is a comparison and the comma
after it does end it.

The tokens that a reading answers with are those that were read, with two exceptions: the names of
lifetimes come first among the arguments of a type, and the index of a member is written in its
shortest decimal form, so that `t.0.0x1`, where `0.0x1` is one literal, is a member of a member and
the same as `t.0.1`.

## Operators

Binary operators have levels, the higher of which bind closer.  An operand extends over all
operators that bind closer than the one before it; operators of one level join to the left, except
for assignments.  Two signs of comparison may not follow one another at the same level, and a range
is never the left operand of anything.

## Limits

All readings of this module call each other, and every call lowers a limit.  Between two tokens
there are less than sixteen calls, and no comma stands first or after another one, so that the limit
`depth` for the list that is read is enough.
-/

namespace Determinization
namespace Declaration

/-- Tokens that were read, with what their surroundings have to know about their form. -/
structure Phrase (σ : Type) where
  tokens : List Token
  form : σ

/-- An enough number of steps for reading the tokens. -/
def depth (tokens : List Token) : Nat := 32 * (tokens.countP (!·.isComma) + 1)

/-! ## Arguments of paths -/

/-- The kinds of arguments between angle brackets. -/
inductive ArgumentKind where
  | lifetime
  | constant
  | type
  /-- A name with an equals sign and a type or a constant. -/
  | binding
  deriving DecidableEq

/-- An argument between angle brackets; does a comma follow it? -/
structure Argument where
  kind : ArgumentKind
  tokens : List Token
  followed : Bool

/-- The arguments one after the other, with commas between them and after those that had one. -/
def Argument.written : List Argument → List Token
  | [] => []
  | a :: l =>
      a.tokens ++ (if a.followed || !l.isEmpty then [.mark ',' false] else []) ++ written l

/-- The arguments as they are written, lifetimes first. -/
def Argument.listed (l : List Argument) : List Token :=
  written (l.filter (·.kind = .lifetime) ++ l.filter (·.kind ≠ .lifetime))

/-! ## Paths -/

/-- A part of a path between double colons: a word and its arguments, if it has some. -/
structure Segment where
  word : Token
  tokens : List Token
  arguments : Option (List Argument)

/-- Is the segment spelled as an optional type? -/
def Segment.isOption (s : Segment) : Bool :=
  s.word.isWord "Option" && s.arguments.any fun l =>
    match l with
    | [a] => a.kind = .type
    | _ => false

/-- The form of a path: the double colon before it, if there is one, and its segments. -/
structure PathForm where
  leading : List Token
  segments : List Segment

/-- Is it a single segment? -/
def PathForm.isSingle (p : PathForm) : Bool := p.leading.isEmpty && p.segments.length == 1

/-- Has no segment arguments? -/
def PathForm.isPlain (p : PathForm) : Bool := p.segments.all (·.arguments.isNone)

/-- Is the last segment spelled as an optional type? -/
def PathForm.isOption (p : PathForm) : Bool := p.segments.getLast?.any Segment.isOption

/-- The path as it is written. -/
def PathForm.tokens (p : PathForm) : List Token := p.leading ++ p.segments.flatMap Segment.tokens

/-- Take a word that can be a segment of a path: a name, one of those that lead to a place, or one
of some further keywords. -/
def readPathWord (further : List String) : Reading Token := do
  match ← get with
  | .word text :: rest =>
      let leads := (["self", "Self", "super", "crate"] ++ further).any (·.toList == text)
      if leads || (Name.ofWord? text).isSome then
        set rest
        return .word text
      else failure
  | _ => failure

/-- Take the rest of a path of words only, in at most so many steps. -/
def readPlainSegments : Nat → Reading (List Token)
  | 0 => failure
  | limit + 1 => do
      let word ← readPathWord []
      if ← seesSign "::" then
        let colons ← readSign "::"
        let more ← readPlainSegments limit
        return [word] ++ colons ++ more
      else return [word]

/-- Take a path of words only. -/
def readPlainPath : Reading (List Token) := do
  let leading ← readSign? "::"
  let segments ← readPlainSegments ((← get).length + 1)
  return leading ++ segments

/-- Do a double colon and a token of this kind come next? -/
def seesColonsAnd (p : Token → Bool) : Reading Bool := do
  let tokens ← get
  return beginsWithMarks [':', ':'] tokens && ((tokens.drop 2).head?.map p).getD false

/-- Do the arguments of a segment come next?  In an expression they need a double colon, because
there a single angle bracket is a comparison. -/
def seesArguments (inType : Bool) : Reading Bool := do
  let colons ← seesColonsAnd fun t => match t with
    | .mark c _ => c == '<'
    | _ => false
  let angle ← seesSign "<"
  let less ← seesSign "<="
  let shift ← seesSign "<<="
  return colons || (inType && angle && !less && !shift)

/-- Does an exclamation mark or a double colon come after the next token? -/
def seesSignAfterWord : Reading Bool := do
  let rest := (← get).drop 1
  return beginsWithMarks ['!'] rest || beginsWithMarks [':', ':'] rest

/-! ## Expressions -/

/-- What matters about the form of an expression. -/
inductive ExpressionForm where
  | comparison
  | range
  | other
  deriving DecidableEq

/-- The levels of operators. -/
abbrev Level := Nat

/-- The level of assignments. -/
def assignmentLevel : Level := 1

/-- The level of ranges. -/
def rangeLevel : Level := 2

/-- The level of comparisons. -/
def comparisonLevel : Level := 6

/-- The level of casts. -/
def castLevel : Level := 13

/-- The operators with two operands and their levels, each before those that it begins with. -/
def operators : List (String × Level) :=
  [("+=", 1), ("-=", 1), ("*=", 1), ("/=", 1), ("%=", 1), ("^=", 1), ("&=", 1), ("|=", 1),
    ("<<=", 1), (">>=", 1), ("&&", 4), ("||", 3), ("<<", 10), (">>", 10), ("==", 6), ("<=", 6),
    ("!=", 6), (">=", 6), ("+", 11), ("-", 11), ("*", 12), ("/", 12), ("%", 12), ("^", 8), ("&", 9),
    ("|", 7), ("<", 6), (">", 6)]

/-- What can come after an operand. -/
inductive Continuation where
  | operator (sign : String) (level : Level)
  | assignment
  | range
  | cast
  | nothing

/-- The level of what comes after an operand. -/
def Continuation.level : Continuation → Level
  | operator _ level => level
  | assignment => assignmentLevel
  | range => rangeLevel
  | cast => castLevel
  | nothing => 0

/-- What comes next after an operand. -/
def seeContinuation : Reading Continuation := do
  let tokens ← get
  match operators.find? fun o => beginsWithMarks o.1.toList tokens with
  | some (sign, level) => return .operator sign level
  | none =>
      if beginsWithMarks ['='] tokens && !beginsWithMarks ['=', '>'] tokens then return .assignment
      else if beginsWithMarks ['.', '.'] tokens then return .range
      else if (tokens.head?.map (Token.isWord "as")).getD false then return .cast
      else return .nothing

/-- Is nothing left that could be the end of a range: nothing at all, or a comma or a semicolon? -/
def seesRangeEnd : Reading Bool := do
  return (← isAtEnd) || (← seesSign ",") || (← seesSign ";")

/-- The index that a whole number without a suffix is, in its shortest decimal form. -/
def indexText? (text : List Char) : Option (List Char) :=
  let (base, written) := baseOf text
  let digits := written.filter (· != '_')
  let value := digits.foldl (fun n c => base * n + digitValue c) 0
  let isDigit (c : Char) : Bool := isHexDigit c && digitValue c < base
  if isNumber text && !digits.isEmpty && digits.all isDigit && value < 4294967296 then
    some (Text.decimal value)
  else none

/-- The indices with points between them that a number after a point is.  If it ends in a point, the
last of them is empty. -/
def indexTexts? (text : List Char) : Option (List (List Char)) :=
  match Text.pieces '.' text with
  | [a] => (indexText? a).map fun a => [a]
  | [a, []] => (indexText? a).map fun a => [a, []]
  | [a, b] => (indexText? a).bind fun a => (indexText? b).map fun b => [a, b]
  | _ => none

/-- Take an index or two after a point, if a literal comes next; does a point still wait for a
member? -/
def readIndices : Reading (List Token × Bool) := do
  match ← get with
  | .literal text :: rest =>
      match indexTexts? text with
      | some [a, []] => set rest; return ([.literal a, .mark '.' false], true)
      | some [a, b] => set rest; return ([.literal a, .mark '.' false, .literal b], false)
      | some [a] => set rest; return ([.literal a], false)
      | _ => failure
  | _ => return ([], true)

/-- Take a single index. -/
def readIndex : Reading (List Token) := do
  let (index, waits) ← readIndices
  if waits || index.length != 1 then failure else return index

mutual

/-- Take an argument between angle brackets. -/
def readArgument : Nat → Reading (Phrase ArgumentKind)
  | 0 => failure
  | limit + 1 => do
      if ← seesLifetime then return ⟨← readLifetime, .lifetime⟩
      else if ← seesConstant then return ⟨← readConstant, .constant⟩
      else
        let type ← readType limit
        let isBinding := type.form.any (·.isSingle) && (← seesSign "=")
        if isBinding then
          let equals ← readSign "="
          if ← seesConstant then return ⟨type.tokens ++ equals ++ (← readConstant), .binding⟩
          else return ⟨type.tokens ++ equals ++ (← readType limit).tokens, .binding⟩
        else return ⟨type.tokens, .type⟩

/-- Take arguments up to the closing angle bracket. -/
def readArguments : Nat → Reading (List Argument)
  | 0 => failure
  | limit + 1 => do
      if ← seesSign ">" then return []
      let a ← readArgument limit
      if ← seesSign ">" then return [⟨a.form, a.tokens, false⟩]
      let _ ← readSign ","
      let more ← readArguments limit
      return ⟨a.form, a.tokens, true⟩ :: more

/-- Take a segment of a path, which may be one of some further keywords. -/
def readSegment : Nat → Bool → List String → Reading Segment
  | 0, _, _ => failure
  | limit + 1, inType, further => do
      let word ← readPathWord further
      let leads := ["self", "super", "crate", "try"].any word.isWord
      if !leads && (← seesArguments inType) then
        let colons ← readSign? "::"
        let opening ← readSign "<"
        let arguments ← readArguments limit
        let closing ← readSign ">"
        let tokens := [word] ++ colons ++ opening ++ Argument.listed arguments ++ closing
        return ⟨word, tokens, some arguments⟩
      else return ⟨word, [word], none⟩

/-- Take further segments of a path, each with the double colon before it. -/
def readSegments : Nat → Bool → Reading (List Segment)
  | 0, _ => failure
  | limit + 1, inType => do
      let beforeGroup ← seesColonsAnd (· == .opening .round)
      if (← seesSign "::") && !beforeGroup then
        let colons ← readSign "::"
        let s ← readSegment limit inType ["try"]
        let more ← readSegments limit inType
        return { s with tokens := colons ++ s.tokens } :: more
      else return []

/-- Take a path.  The keyword `try` may be a segment after a double colon, and in an expression also
the first one if an exclamation mark or a double colon follows it. -/
def readPath : Nat → Bool → Reading (Phrase PathForm)
  | 0, _ => failure
  | limit + 1, inType => do
      let leading ← readSign? "::"
      let mayTry := (← seesSignAfterWord) && !inType || !leading.isEmpty
      let first ← readSegment limit inType (if mayTry then ["try"] else [])
      let more ← readSegments limit inType
      let form : PathForm := ⟨leading, first :: more⟩
      return ⟨form.tokens, form⟩

/-- Take a type; if it is a path, its form is that of the path. -/
def readType : Nat → Reading (Phrase (Option PathForm))
  | 0 => failure
  | limit + 1 => do
      if ← seesBracket .round then
        let group ← readGroup .round (readListed do return (← readType limit).tokens)
        return ⟨group, none⟩
      else if ← seesBracket .square then
        let group ← readGroup .square do
          let item ← readType limit
          if ← seesSign ";" then
            let semicolon ← readSign ";"
            let count ← readExpression limit
            return item.tokens ++ semicolon ++ count.tokens
          else return item.tokens
        return ⟨group, none⟩
      else if ← seesSign "&" then
        let sign ← readSign "&"
        let lifetime ← readLifetime?
        let change ← readWord? "mut"
        let type ← readType limit
        return ⟨sign ++ lifetime ++ change ++ type.tokens, none⟩
      else if ← seesSign "*" then
        let sign ← readSign "*"
        let change ← readWord "mut" <|> readWord "const"
        let type ← readType limit
        return ⟨sign ++ change ++ type.tokens, none⟩
      else if ← seesSign "!" then return ⟨← readSign "!", none⟩
      else if ← seesWord "_" then return ⟨← readWord "_", none⟩
      else
        let path ← readPath limit true
        return ⟨path.tokens, some path.form⟩

/-- Take attributes: number signs, each with a path or the keyword `unsafe` in square brackets and
after it a group, a value or nothing. -/
def readAttributes : Nat → Reading (List Token)
  | 0 => failure
  | limit + 1 => do
      if ← seesSign "#" then
        let sign ← readSign "#"
        let group ← readGroup .square do
          let path ← if ← seesWord "unsafe" then readWord "unsafe" else readPlainPath
          if ← isAtEnd then return path
          else if ← sees (fun t => t matches .opening _) then return path ++ (← readAnyGroup)
          else
            let equals ← readSign "="
            if ← seesSign "#" then failure
            let value ← readExpression limit
            return path ++ equals ++ value.tokens
        let more ← readAttributes limit
        return sign ++ group ++ more
      else return []

/-- Take an expression. -/
def readExpression : Nat → Reading (Phrase ExpressionForm)
  | 0 => failure
  | limit + 1 => do
      let operand ← readPrefixed limit
      readContinued limit 0 operand

/-- Extend an expression over the operators after it, as long as their level is not below a given
one. -/
def readContinued : Nat → Level → Phrase ExpressionForm → Reading (Phrase ExpressionForm)
  | 0, _, _ => failure
  | limit + 1, lowest, left => do
      let next ← seeContinuation
      if left.form = .range || next.level < lowest then return left
      else
        match next with
        | .operator sign level =>
            if level = comparisonLevel ∧ left.form = .comparison then failure
            let sign ← readSign sign
            let right ← readOperand limit level
            let form := if level = comparisonLevel then .comparison else .other
            readContinued limit lowest ⟨left.tokens ++ sign ++ right.tokens, form⟩
        | .assignment =>
            let sign ← readSign "="
            let right ← readOperand limit assignmentLevel
            readContinued limit lowest ⟨left.tokens ++ sign ++ right.tokens, .other⟩
        | .range =>
            let range ← readRange limit
            readContinued limit lowest ⟨left.tokens ++ range, .range⟩
        | .cast =>
            let sign ← readWord "as"
            let type ← readType limit
            readContinued limit lowest ⟨left.tokens ++ sign ++ type.tokens, .other⟩
        | .nothing => return left

/-- Take the right operand of an operator of a level. -/
def readOperand : Nat → Level → Reading (Phrase ExpressionForm)
  | 0, _ => failure
  | limit + 1, level => do
      let operand ← readPrefixed limit
      readTighter limit level operand

/-- Extend an operand over the operators after it that bind closer than a level, or as close as
assignments do. -/
def readTighter : Nat → Level → Phrase ExpressionForm → Reading (Phrase ExpressionForm)
  | 0, _, _ => failure
  | limit + 1, level, operand => do
      let next ← seeContinuation
      if level < next.level ∨ (next.level = level ∧ level = assignmentLevel) then
        let extended ← readContinued limit next.level operand
        if extended.tokens.length = operand.tokens.length then return extended
        else readTighter limit level extended
      else return operand

/-- Take the sign of a range and its end; an open range may have none. -/
def readRange : Nat → Reading (List Token)
  | 0 => failure
  | limit + 1 => do
      if ← seesSign "..=" then
        let sign ← readSign "..="
        return sign ++ (← readOperand limit rangeLevel).tokens
      else if ← seesSign "..." then failure
      else
        let sign ← readSign ".."
        if ← seesRangeEnd then return sign
        else return sign ++ (← readOperand limit rangeLevel).tokens

/-- Take an expression without operators between operands. -/
def readPrefixed : Nat → Reading (Phrase ExpressionForm)
  | 0 => failure
  | limit + 1 => do
      let attributes ← readAttributes limit
      if ← seesSign "&" then
        let sign ← readSign "&"
        let change ← readWord? "mut"
        let operand ← readPrefixed limit
        return ⟨attributes ++ sign ++ change ++ operand.tokens, .other⟩
      else if (← seesSign "*") || (← seesSign "!") || (← seesSign "-") then
        let sign ← readSign "*" <|> readSign "!" <|> readSign "-"
        let operand ← readPrefixed limit
        return ⟨attributes ++ sign ++ operand.tokens, .other⟩
      else if ← seesSign ".." then return ⟨attributes ++ (← readRange limit), .range⟩
      else
        let atom ← readAtom limit
        let e ← readSuffixes limit atom
        return ⟨attributes ++ e, .other⟩

/-- Extend an expression over calls, members, indices and question marks. -/
def readSuffixes : Nat → List Token → Reading (List Token)
  | 0, _ => failure
  | limit + 1, e => do
      let items := readListed do return (← readExpression limit).tokens
      if ← seesBracket .round then
        let call ← readGroup .round items
        readSuffixes limit (e ++ call)
      else if ← seesBracket .square then
        let index ← readGroup .square do return (← readExpression limit).tokens
        readSuffixes limit (e ++ index)
      else if ← seesSign "?" then
        let sign ← readSign "?"
        readSuffixes limit (e ++ sign)
      else if (← seesSign ".") && !(← seesSign "..") then
        let point ← readSign "."
        let (indices, waits) ← readIndices
        if !waits then readSuffixes limit (e ++ point ++ indices)
        else if ← seesWord "await" then
          let word ← readWord "await"
          readSuffixes limit (e ++ point ++ indices ++ word)
        else if ← sees Token.isLiteral then
          let index ← readIndex
          readSuffixes limit (e ++ point ++ indices ++ index)
        else
          let name ← readName
          let e := e ++ point ++ indices ++ [name.token]
          if ← seesSign "::" then
            let colons ← readSign "::"
            let opening ← readSign "<"
            let arguments ← readArguments limit
            let closing ← readSign ">"
            let call ← readGroup .round items
            readSuffixes limit
              (e ++ colons ++ opening ++ Argument.listed arguments ++ closing ++ call)
          else readSuffixes limit e
      else return e

/-- Take an expression without prefixes and suffixes. -/
def readAtom : Nat → Reading (List Token)
  | 0 => failure
  | limit + 1 => do
      let items := readListed do return (← readExpression limit).tokens
      if ← seesConstant then readConstant
      else if ← seesBracket .round then readGroup .round items
      else if ← seesBracket .square then
        readGroup .square do
          if ← isAtEnd then return []
          let item ← readExpression limit
          if ← isAtEnd then return item.tokens
          else if ← seesSign ";" then
            let semicolon ← readSign ";"
            let count ← readExpression limit
            return item.tokens ++ semicolon ++ count.tokens
          else
            let comma ← readSign ","
            let more ← items
            return item.tokens ++ comma ++ more
      else if ← seesWord "_" then readWord "_"
      else
        let path ← readPath limit false
        if path.form.isPlain && (← seesSign "!") && !(← seesSign "!=") then
          let sign ← readSign "!"
          let group ← readAnyGroup
          return path.tokens ++ sign ++ group
        else if ← seesBracket .curly then
          let group ← readGroup .curly (readMembers limit)
          return path.tokens ++ group
        else return path.tokens

/-- Take the members of a structure up to the end: a name or an index with its value, a name alone,
or two points and the structure that gives the rest. -/
def readMembers : Nat → Reading (List Token)
  | 0 => failure
  | limit + 1 => do
      if ← isAtEnd then return []
      else if ← seesSign ".." then
        let sign ← readSign ".."
        if ← isAtEnd then return sign
        return sign ++ (← readExpression limit).tokens
      else
        let attributes ← readAttributes limit
        let isIndexed ← sees Token.isLiteral
        let name ← if isIndexed then readIndex else (do return [(← readName).token])
        let value ←
          if isIndexed || (← seesSign ":") then do
            let colon ← readSign ":"
            let e ← readExpression limit
            pure (colon ++ e.tokens)
          else pure []
        let member := attributes ++ name ++ value
        if ← isAtEnd then return member
        let comma ← readSign ","
        let more ← readMembers limit
        return member ++ comma ++ more

end

end Declaration
end Determinization
