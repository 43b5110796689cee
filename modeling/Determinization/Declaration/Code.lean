import Determinization.Declaration.Basic

/-!
# The code made from a declaration

A declaration becomes two structures and what connects them.  The first structure has the settings
as its fields; in the second one, whose name begins with `Partial`, every field may be missing, and
a text of settings is read into it.  The first is made from the second by taking the fallback
where a field is missing, and it has a function for each setting that replaces the setting, one that
changes it and one that shows it.

The code has parts that list the settings: the fields of both structures, the values with which the
first one is made from the second, its default values, and the functions.  They are kept apart as
lists (`Code`) until the code is written, so that it can be seen that they list the same settings in
the same order.  The written code is a sequence of tokens.  Its text is one line, with a space
between any two tokens, and with a space also where a literal has line breaks.
-/

namespace Determinization
namespace Declaration

/-- A field of a structure. -/
structure Field where
  attributes : List Token
  name : Name
  type : List Token

/-- A field and the value that it gets. -/
structure Assignment where
  name : Name
  value : List Token

/-- What a function does to a setting. -/
inductive Access where
  /-- Give a structure with another value. -/
  | replace
  /-- Change the value in place. -/
  | set
  /-- Look at the value. -/
  | get
  deriving DecidableEq

/-- A function for a setting. -/
structure Accessor where
  access : Access
  name : Name
  type : List Token

/-- The code made from a declaration. -/
structure Code where
  attributes : List Token
  visibility : List Token
  name : Name
  partialName : Name
  fields : List Field
  partialFields : List Field
  /-- The fallback of each field that may be missing. -/
  fallbacks : List Assignment
  defaults : List Assignment
  accessors : List Accessor

/-- The functions for a setting. -/
def Setting.accessors (s : Setting) : List Accessor :=
  [.replace, .set, .get].map fun access => ⟨access, s.name, s.type.tokens⟩

/-- The code made from a declaration. -/
def code (d : Declaration) : Code where
  attributes := d.attributes
  visibility := d.visibility
  name := d.name
  partialName := d.name.joined "Partial"
  fields := d.settings.map fun s => ⟨s.attributes, s.name, s.type.tokens⟩
  partialFields := d.settings.map fun s => ⟨[], s.name, s.partialType⟩
  fallbacks := d.settings.map fun s => ⟨s.name, s.fallback⟩
  defaults := d.settings.map fun s => ⟨s.name, s.fallback⟩
  accessors := d.settings.flatMap Setting.accessors

/-! ## The lists of settings

All lists of the code follow the settings, each with what it shows of them. -/

@[simp] theorem fields_code (d : Declaration) :
    d.code.fields = d.settings.map fun s => ⟨s.attributes, s.name, s.type.tokens⟩ := rfl

@[simp] theorem partialFields_code (d : Declaration) :
    d.code.partialFields = d.settings.map fun s => ⟨[], s.name, s.partialType⟩ := rfl

@[simp] theorem fallbacks_code (d : Declaration) :
    d.code.fallbacks = d.settings.map fun s => ⟨s.name, s.fallback⟩ := rfl

@[simp] theorem defaults_code (d : Declaration) :
    d.code.defaults = d.settings.map fun s => ⟨s.name, s.fallback⟩ := rfl

@[simp] theorem accessors_code (d : Declaration) :
    d.code.accessors = d.settings.flatMap Setting.accessors := rfl

/-! ## Tokens of the code -/

/-- The token with a text that is no literal. -/
def Token.ofText (text : List Char) : Token :=
  match text with
  | [c] =>
      match Bracket.ofOpening? c, Bracket.ofClosing? c with
      | some b, _ => .opening b
      | _, some b => .closing b
      | none, none => if isMark c then .mark c false else .word text
  | _ => .word text

/-- Tokens given by their texts with a space between any two. -/
def fixed (texts : String) : List Token := (Text.pieces ' ' texts.toList).map Token.ofText

/-- Tokens between brackets. -/
def bracketed (b : Bracket) (tokens : List Token) : List Token :=
  [.opening b] ++ tokens ++ [.closing b]

/-- The name of the function. -/
def Accessor.functionName (a : Accessor) : Name :=
  match a.access with
  | .replace => a.name.joined "with_"
  | .set => a.name.joined "set_"
  | .get => a.name.joined "get_"

/-- A field as it is declared. -/
def Field.tokens (f : Field) : List Token :=
  f.attributes ++ [f.name.token] ++ fixed ":" ++ f.type ++ fixed ","

/-- A field as it gets a value that is known. -/
def Assignment.tokens (a : Assignment) : List Token :=
  [a.name.token] ++ fixed ":" ++ a.value ++ fixed ","

/-- A field as it gets the value that may be missing, or else its fallback. -/
def Assignment.fallbackTokens (a : Assignment) : List Token :=
  [a.name.token] ++ fixed ": partial ." ++ [a.name.token] ++ fixed ". into_or" ++
    bracketed .round a.value ++ fixed ","

/-- The function as it is declared. -/
def Accessor.tokens (a : Accessor) : List Token :=
  let place := fixed "self ." ++ [a.name.token]
  let assignment := place ++ fixed "=" ++ [a.name.token] ++ fixed ";"
  let argument := [a.name.token] ++ fixed ":" ++ a.type
  let start := fixed "pub fn" ++ [a.functionName.token]
  match a.access with
  | .replace =>
      start ++ bracketed .round (fixed "mut self ," ++ argument) ++ fixed "- > Self" ++
        bracketed .curly (assignment ++ fixed "self")
  | .set =>
      start ++ bracketed .round (fixed "& mut self ," ++ argument) ++ bracketed .curly assignment
  | .get =>
      start ++ fixed "( & self ) - > &" ++ a.type ++ bracketed .curly (fixed "&" ++ place)

section Parts

variable (c : Code)

/-- The structure of the settings. -/
def Code.structTokens : List Token :=
  c.attributes ++ fixed "# [ derive ( Debug , Clone , PartialEq , serde : : Serialize ) ]" ++
    c.visibility ++ fixed "struct" ++ [c.name.token] ++
    bracketed .curly (c.fields.flatMap Field.tokens)

/-- The structure in which every setting may be missing. -/
def Code.partialTokens : List Token :=
  fixed "# [ derive ( Debug , Clone , Default , serde : : Deserialize ) ]" ++
    fixed "# [ serde ( deny_unknown_fields ) ]" ++
    c.visibility ++ fixed "struct" ++ [c.partialName.token] ++
    bracketed .curly (c.partialFields.flatMap Field.tokens)

/-- The function that takes the fallbacks for what is missing. -/
def Code.fromPartialTokens : List Token :=
  fixed "pub fn from_partial ( partial :" ++ [c.partialName.token] ++ fixed ") - > Self" ++
    bracketed .curly (fixed "use crate : : config : : IntoOr ; Self" ++
      bracketed .curly (c.fallbacks.flatMap Assignment.fallbackTokens))

/-- The functions that read the settings from a text or a file. -/
def readingTokens : List Token :=
  fixed "pub fn from_toml ( content : & str ) - > anyhow : : Result < Self >" ++
    bracketed .curly
      (fixed "Ok ( Self : : from_partial ( toml : : from_str ( content ) ? ) )") ++
    fixed "pub fn from_file < P : AsRef < std : : path : : Path > > ( file_path : P )" ++
    fixed "- > anyhow : : Result < Self >" ++
    bracketed .curly
      (fixed "let content = std : : fs : : read_to_string ( file_path ) ? ;" ++
        fixed "Self : : from_toml ( & content )") ++
    fixed "pub fn from_optional_file < P : AsRef < std : : path : : Path > >" ++
    fixed "( file_path : Option < P > ) - > anyhow : : Result < Self >" ++
    bracketed .curly (fixed "match file_path" ++
      bracketed .curly
        (fixed "Some ( p ) = > Self : : from_file ( p ) ," ++
          fixed "None = > Ok ( Self : : default ( ) ) ,"))

/-- The functions of the structure. -/
def Code.functionTokens : List Token :=
  fixed "impl" ++ [c.name.token] ++
    bracketed .curly (c.fromPartialTokens ++ readingTokens ++ c.accessors.flatMap Accessor.tokens)

/-- The default values. -/
def Code.defaultTokens : List Token :=
  fixed "impl Default for" ++ [c.name.token] ++
    bracketed .curly (fixed "fn default ( ) - > Self" ++
      bracketed .curly ([c.name.token] ++
        bracketed .curly (c.defaults.flatMap Assignment.tokens)))

/-- The way from a nested structure that may be missing to the whole one. -/
def Code.nestedTokens : List Token :=
  fixed "impl crate : : config : : IntoOr <" ++ [c.name.token] ++ fixed "> for Option <" ++
    [c.partialName.token] ++ fixed ">" ++
    bracketed .curly (fixed "fn into_or ( self , or :" ++ [c.name.token] ++ fixed ") - >" ++
      [c.name.token] ++
      bracketed .curly (fixed "match self" ++
        bracketed .curly (fixed "Some ( t ) = >" ++ [c.name.token] ++
          fixed ": : from_partial ( t ) , None = > or ,")))

/-- All tokens of the code. -/
def Code.tokens : List Token :=
  c.structTokens ++ c.partialTokens ++ c.functionTokens ++ c.defaultTokens ++ c.nestedTokens

end Parts

/-- Tokens as one line, with a space between any two. -/
def spaced (tokens : List Token) : List Char :=
  Text.oneLine (Text.join [' '] (tokens.map Token.text))

/-- The text of the code made from a text that is a declaration. -/
def generate? (text : List Char) : Option (List Char) :=
  (ofText? text).map fun d => spaced d.code.tokens

end Declaration
end Determinization
