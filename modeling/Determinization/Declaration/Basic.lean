import Determinization.Declaration.Grammar
import Determinization.Declaration.Lexer

/-!
# Declarations of settings

A declaration names a structure of settings and lists them, each with its type and the value that
it has unless another one is given:

* `name : type = value`, or
* `name : type ( partial type = value )`, for a setting that is itself a structure of settings,
  where the second type is what a text of settings holds in its place.

The types that stand for a setting in a text of settings are optional, because every setting may be
left out.  A type that is spelled as an optional one already is not made optional a second time
(`Setting.partialType`).

A comma may stand after the last setting.  Types, values, attributes and the words that say who can
see the structure are copied without being understood.  How they are read is a parameter of the
reading of declarations (`Grammar`).
-/

namespace Determinization

/-- A setting of a declaration. -/
structure Declaration.Setting where
  attributes : List Declaration.Token
  name : Declaration.Name
  type : Declaration.Phrase (Option Declaration.PathForm)
  /-- The type in parentheses, if there is one. -/
  ownPartialType? : Option (List Declaration.Token)
  /-- The value of the setting if no other is given. -/
  fallback : List Declaration.Token

/-- A declaration of settings. -/
structure Declaration where
  attributes : List Declaration.Token
  /-- Who can see the structure; nothing if only its surroundings can. -/
  visibility : List Declaration.Token
  name : Declaration.Name
  settings : List Declaration.Setting

namespace Declaration

/-- Is the type of the setting spelled as an optional one? -/
def Setting.isOption (s : Setting) : Bool := s.type.form.any (·.isOption)

/-- A type made optional. -/
def optional (type : List Token) : List Token :=
  [.word "Option".toList, .mark '<' false] ++ type ++ [.mark '>' false]

/-- The type of the setting where it may be left out. -/
def Setting.partialType (s : Setting) : List Token :=
  match s.ownPartialType? with
  | some type => type
  | none => if s.isOption then s.type.tokens else optional s.type.tokens

theorem Setting.partialType_of_own {s : Setting} {type : List Token}
    (h : s.ownPartialType? = some type) : s.partialType = type := by
  simp only [partialType, h]

theorem Setting.partialType_of_isOption {s : Setting} (h : s.ownPartialType? = none)
    (hs : s.isOption = true) : s.partialType = s.type.tokens := by
  simp only [partialType, h, hs, if_true]

theorem Setting.partialType_of_not_isOption {s : Setting} (h : s.ownPartialType? = none)
    (hs : s.isOption = false) : s.partialType = optional s.type.tokens := by
  simp [partialType, h, hs]

/-! ## Reading -/

/-- Take the words that say who can see the structure. -/
def readVisibility : Reading (List Token) := do
  if ← seesWord "pub" then
    let word ← readWord "pub"
    if ← seesBracket .round then
      let place ← readGroup .round do
        if ← seesWord "in" then
          let word ← readWord "in"
          let path ← readPlainPath
          return word ++ path
        else readWord "crate" <|> readWord "self" <|> readWord "super"
      return word ++ place
    else return word
  else return []

/-- How the parts of a declaration are read that are copied without being understood. -/
structure Grammar where
  attributes : Reading (List Token)
  visibility : Reading (List Token)
  type : Reading (Phrase (Option PathForm))
  expression : Reading (List Token)

/-- The grammar of the notation. -/
def Grammar.standard : Grammar where
  attributes := do readAttributes (depth (← get))
  visibility := readVisibility
  type := do readType (depth (← get))
  expression := do return (← readExpression (depth (← get))).tokens

section Parts

variable (g : Grammar)

/-- Take an equals sign and a value. -/
def readValue : Reading (List Token) := do
  let _ ← readSign "="
  g.expression

/-- Take a type, an equals sign and a value; the type is `none` if it does not stand there. -/
def readFallback : Reading (Option (List Token) × List Token) := do
  if ← seesBracket .round then
    inside .round do
      let type ← g.type
      let value ← readValue g
      return (some type.tokens, value)
  else return (none, ← readValue g)

/-- Take a setting. -/
def readSetting : Reading Setting := do
  let attributes ← g.attributes
  let name ← readName
  let _ ← readSign ":"
  let type ← g.type
  let (ownPartialType?, fallback) ← readFallback g
  return { attributes, name, type, ownPartialType?, fallback }

/-- Take settings with commas between them up to the end, where one more comma may stand, in at most
so many steps. -/
def readSettings : Nat → Reading (List Setting)
  | 0 => failure
  | limit + 1 => do
      if ← isAtEnd then return []
      let s ← readSetting g
      if ← isAtEnd then return [s]
      let _ ← readSign ","
      let more ← readSettings limit
      return s :: more

/-- Take settings up to the end.  Every setting takes a token at least. -/
def readAllSettings : Reading (List Setting) := do
  readSettings g ((← get).length + 1)

/-- Take a declaration. -/
def read : Reading Declaration := do
  let attributes ← g.attributes
  let visibility ← g.visibility
  let _ ← readWord "struct"
  let name ← readName
  let settings ← inside .curly (readAllSettings g)
  return { attributes, visibility, name, settings }

/-- The declaration that tokens are. -/
def ofTokens? (tokens : List Token) : Option Declaration :=
  match (read g).run tokens with
  | some (d, []) => some d
  | _ => none

end Parts

/-- The declaration that a text is. -/
def ofText? (text : List Char) : Option Declaration := (tokens? text).bind (ofTokens? .standard)

end Declaration
end Determinization
