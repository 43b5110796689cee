import Determinization.Declaration.Code
import Determinization.Proofs.Declaration.Blocks
import Mathlib.Data.List.Basic

/-!
# The parts of the generated code agree

The code made from a declaration lists the settings in five places: the fields of the structure, the
fields of the structure in which they may be missing, the values with which the first is made from
the second, the functions, and the default values.  `codeText` is the code token by token, with what
it says of a setting in each place; all five lists go through the same settings in the same order,
and the fallback of a setting is its default value.

Two things are left open by `codeText`.  A name with the mark of a raw name loses the mark where it
is part of a longer one (`IsBare`).  And the type of a setting that may be missing depends on how
its type is written in the block (`IsPartialType`).

The declaration is what the tokens of a block write (`BlockText`), with copies of its types, values
and attributes, so that the parts list what is written in the block, and **they are the same with a
comma after the last setting and without it** (`code_of_block`).
-/

namespace Determinization
namespace Declaration

variable {g : Grammar} {s : Setting} {d : Declaration} {tokens written rest : List Token}

/-! ## The types of settings that may be missing -/

/-- A word of the code. -/
def word (text : String) : Token := .word text.toList

/-- A mark of the code.  None is joined to the next one. -/
def sign (c : Char) : Token := .mark c false

/-- The type of the setting where it may be missing, if the tokens are its type in the block. -/
inductive IsPartialType (s : Setting) (written : List Token) : List Token → Prop where
  /-- The type in parentheses, if there is one. -/
  | own {type : List Token} (h : s.ownPartialType? = some type) : IsPartialType s written type
  /-- Otherwise the type of the setting, if it is spelled as an optional one. -/
  | kept (h : s.ownPartialType? = none) (hs : SpelledOptional written) :
      IsPartialType s written s.type.tokens
  /-- Otherwise the type of the setting, made optional once. -/
  | wrapped (h : s.ownPartialType? = none) (hs : ¬ SpelledOptional written) :
      IsPartialType s written
        ([word "Option", sign '<'] ++ s.type.tokens ++ [sign '>'])

theorem isPartialType_partialType [g.Lawful] (hs : Takes g.type written s.type rest) :
    IsPartialType s written s.partialType := by
  cases hown : s.ownPartialType? with
  | some type =>
      rw [Setting.partialType_of_own hown]
      exact .own hown
  | none =>
      have hiff : s.isOption = true ↔ SpelledOptional written := isOption_iff hs
      by_cases hoption : s.isOption = true
      · rw [Setting.partialType_of_isOption hown hoption]
        exact .kept hown (hiff.1 hoption)
      · rw [Setting.partialType_of_not_isOption hown (Bool.eq_false_iff.2 hoption)]
        exact .wrapped hown fun h => hoption (hiff.2 h)

/-! ## The text of the code -/

/-- A field with its type, or with its value. -/
def fieldText (name : List Char) (content : List Token) : List Token :=
  [Token.word name, sign ':'] ++ content ++ [sign ',']

/-- A field with the value that may be missing, or else the fallback. -/
def fallbackText (name : List Char) (value : List Token) : List Token :=
  [Token.word name, sign ':', word "partial", sign '.', .word name, sign '.', word "into_or",
    .opening .round] ++ value ++ [Token.closing .round, sign ',']

/-- The function that gives a structure with another value. -/
def replaceText (name function : List Char) (type : List Token) : List Token :=
  [word "pub", word "fn", .word function, .opening .round, word "mut", word "self", sign ',',
    .word name, sign ':'] ++ type ++ [Token.closing .round, sign '-', sign '>', word "Self",
    .opening .curly, word "self", sign '.', .word name, sign '=', .word name, sign ';', word "self",
    .closing .curly]

/-- The function that changes a value. -/
def setText (name function : List Char) (type : List Token) : List Token :=
  [word "pub", word "fn", .word function, .opening .round, sign '&', word "mut", word "self",
    sign ',', .word name, sign ':'] ++ type ++ [Token.closing .round, .opening .curly, word "self",
    sign '.', .word name, sign '=', .word name, sign ';', .closing .curly]

/-- The function that shows a value. -/
def getText (name function : List Char) (type : List Token) : List Token :=
  [word "pub", word "fn", .word function, .opening .round, sign '&', word "self", .closing .round,
    sign '-', sign '>', sign '&'] ++ type ++ [Token.opening .curly, sign '&', word "self", sign '.',
    .word name, .closing .curly]

/-- The functions that read the settings from a text or a file. -/
def readingText : List Token :=
  fixed "pub fn from_toml ( content : & str ) - > anyhow : : Result < Self >" ++
    [Token.opening .curly] ++
    fixed "Ok ( Self : : from_partial ( toml : : from_str ( content ) ? ) )" ++
    [Token.closing .curly] ++
  fixed "pub fn from_file < P : AsRef < std : : path : : Path > > ( file_path : P )" ++
    fixed "- > anyhow : : Result < Self >" ++ [Token.opening .curly] ++
    fixed "let content = std : : fs : : read_to_string ( file_path ) ? ;" ++
    fixed "Self : : from_toml ( & content )" ++ [Token.closing .curly] ++
  fixed "pub fn from_optional_file < P : AsRef < std : : path : : Path > >" ++
    fixed "( file_path : Option < P > ) - > anyhow : : Result < Self >" ++ [Token.opening .curly] ++
    fixed "match file_path" ++ [Token.opening .curly] ++
    fixed "Some ( p ) = > Self : : from_file ( p ) ," ++
    fixed "None = > Ok ( Self : : default ( ) ) ," ++ [Token.closing .curly, .closing .curly]

section Text

variable (d : Declaration) (bare : List Char → List Char) (partialType : Setting → List Token)

/-- The structure. -/
def structText : List Token :=
  d.attributes ++ fixed "# [ derive ( Debug , Clone , PartialEq , serde : : Serialize ) ]" ++
    d.visibility ++ [word "struct", .word d.name.text, .opening .curly] ++
    d.settings.flatMap (fun s => s.attributes ++ fieldText s.name.text s.type.tokens) ++
    [Token.closing .curly]

/-- The structure in which settings may be missing. -/
def partialText : List Token :=
  fixed "# [ derive ( Debug , Clone , Default , serde : : Deserialize ) ]" ++
    fixed "# [ serde ( deny_unknown_fields ) ]" ++
    d.visibility ++ [word "struct", .word ("Partial".toList ++ bare d.name.text),
      .opening .curly] ++
    d.settings.flatMap (fun s => fieldText s.name.text (partialType s)) ++
    [Token.closing .curly]

/-- The function that takes the fallbacks for what is missing. -/
def fromPartialText : List Token :=
  fixed "pub fn from_partial ( partial :" ++ [Token.word ("Partial".toList ++ bare d.name.text)] ++
    fixed ") - > Self" ++ [Token.opening .curly] ++
    fixed "use crate : : config : : IntoOr ; Self" ++ [Token.opening .curly] ++
    d.settings.flatMap (fun s => fallbackText s.name.text s.fallback) ++
    [Token.closing .curly, .closing .curly]

/-- The functions for the settings. -/
def accessorsText : List Token :=
  d.settings.flatMap fun s =>
    replaceText s.name.text ("with_".toList ++ bare s.name.text) s.type.tokens ++
      setText s.name.text ("set_".toList ++ bare s.name.text) s.type.tokens ++
      getText s.name.text ("get_".toList ++ bare s.name.text) s.type.tokens

/-- The default values. -/
def defaultText : List Token :=
  fixed "impl Default for" ++ [Token.word d.name.text, .opening .curly] ++
    fixed "fn default ( ) - > Self" ++ [Token.opening .curly, .word d.name.text, .opening .curly] ++
    d.settings.flatMap (fun s => fieldText s.name.text s.fallback) ++
    [Token.closing .curly, .closing .curly, .closing .curly]

/-- The way from a structure that may be missing to the whole one. -/
def nestedText : List Token :=
  fixed "impl crate : : config : : IntoOr <" ++ [Token.word d.name.text] ++
    fixed "> for Option <" ++ [Token.word ("Partial".toList ++ bare d.name.text)] ++ fixed ">" ++
    [Token.opening .curly] ++
    fixed "fn into_or ( self , or :" ++ [Token.word d.name.text] ++ fixed ") - >" ++
    [Token.word d.name.text, .opening .curly] ++ fixed "match self" ++ [Token.opening .curly] ++
    fixed "Some ( t ) = >" ++ [Token.word d.name.text] ++
    fixed ": : from_partial ( t ) , None = > or ," ++
    [Token.closing .curly, .closing .curly, .closing .curly]

/-- The code of a declaration, given the bare form of names and the types of the settings that may
be missing. -/
def codeText : List Token :=
  structText d ++ partialText d bare partialType ++
    ([word "impl", .word d.name.text, .opening .curly] ++ fromPartialText d bare ++ readingText ++
      accessorsText d bare ++ [Token.closing .curly]) ++
    defaultText d ++ nestedText d bare

end Text

theorem readingTokens_eq : readingTokens = readingText := by
  simp only [readingTokens, readingText, bracketed, List.append_assoc, List.cons_append,
    List.nil_append]

theorem fixed_colon : fixed ":" = [sign ':'] := by decide

theorem fixed_comma : fixed "," = [sign ','] := by decide

theorem Field.tokens_eq (f : Field) : f.tokens = f.attributes ++ fieldText f.name.text f.type := by
  simp only [tokens, fieldText, fixed_colon, fixed_comma, Name.token, List.append_assoc,
    List.cons_append, List.nil_append]

theorem Assignment.tokens_eq (a : Assignment) : a.tokens = fieldText a.name.text a.value := by
  simp only [tokens, fieldText, fixed_colon, fixed_comma, Name.token, List.cons_append,
    List.nil_append]

theorem Assignment.fallbackTokens_eq (a : Assignment) :
    a.fallbackTokens = fallbackText a.name.text a.value := by
  have hpartial : fixed ": partial ." = [sign ':', word "partial", sign '.'] := by decide
  have hinto : fixed ". into_or" = [sign '.', word "into_or"] := by decide
  simp only [fallbackTokens, fallbackText, bracketed, hpartial, hinto, fixed_comma, Name.token,
    List.append_assoc, List.cons_append, List.nil_append]

/-- The function that does this to the setting. -/
def functionText : Access → List Char → List Char → List Token → List Token
  | .replace => replaceText
  | .set => setText
  | .get => getText

theorem Accessor.tokens_eq (a : Accessor) :
    a.tokens = functionText a.access a.name.text a.functionName.text a.type := by
  have hplace : fixed "self ." = [word "self", sign '.'] := by decide
  have hequals : fixed "=" = [sign '='] := by decide
  have hend : fixed ";" = [sign ';'] := by decide
  have hstart : fixed "pub fn" = [word "pub", word "fn"] := by decide
  have hmut : fixed "mut self ," = [word "mut", word "self", sign ','] := by decide
  have hSelf : fixed "- > Self" = [sign '-', sign '>', word "Self"] := by decide
  have hself : fixed "self" = [word "self"] := by decide
  have hreference : fixed "& mut self ," = [sign '&', word "mut", word "self", sign ','] := by
    decide
  have hget : fixed "( & self ) - > &" = [.opening .round, sign '&', word "self", .closing .round,
    sign '-', sign '>', sign '&'] := by decide
  have hand : fixed "&" = [sign '&'] := by decide
  rcases a with ⟨_ | _ | _, name, type⟩
  · simp only [tokens, functionText, replaceText, bracketed, fixed_colon, hplace, hequals, hend,
      hstart, hmut, hSelf, hself, Name.token, List.append_assoc, List.cons_append, List.nil_append]
  · simp only [tokens, functionText, setText, bracketed, fixed_colon, hplace, hequals, hend,
      hstart, hreference, Name.token, List.append_assoc, List.cons_append, List.nil_append]
  · simp only [tokens, functionText, getText, bracketed, hplace, hstart, hget, hand, Name.token,
      List.cons_append, List.nil_append]

theorem structTokens_code (d : Declaration) : d.code.structTokens = structText d := by
  have hstruct : fixed "struct" = [word "struct"] := by decide
  have hname : d.code.name.token = .word d.name.text := rfl
  have hattributes : d.code.attributes = d.attributes := rfl
  have hvisibility : d.code.visibility = d.visibility := rfl
  simp only [Code.structTokens, structText, bracketed, hstruct, hname, hattributes, hvisibility,
    fields_code, List.flatMap_map, Field.tokens_eq, List.append_assoc, List.cons_append,
    List.nil_append]

theorem defaultTokens_code (d : Declaration) : d.code.defaultTokens = defaultText d := by
  have hname : d.code.name.token = .word d.name.text := rfl
  simp only [Code.defaultTokens, defaultText, bracketed, hname, defaults_code, List.flatMap_map,
    Assignment.tokens_eq, List.append_assoc, List.cons_append, List.nil_append]

section Bare

variable {bare : List Char → List Char} (hbare : ∀ n : Name, n.bare = bare n.text)

include hbare

theorem token_joined (start : String) (n : Name) :
    (n.joined start).token = .word (start.toList ++ bare n.text) := by
  rw [Name.joined, Name.token, hbare]

theorem partialTokens_code (d : Declaration) :
    d.code.partialTokens = partialText d bare Setting.partialType := by
  have hstruct : fixed "struct" = [word "struct"] := by decide
  have hname : d.code.partialName.token = _ := token_joined hbare "Partial" d.name
  have hvisibility : d.code.visibility = d.visibility := rfl
  simp only [Code.partialTokens, partialText, bracketed, hstruct, hname, hvisibility,
    partialFields_code, List.flatMap_map, Field.tokens_eq, List.append_assoc, List.cons_append,
    List.nil_append]

theorem fromPartialTokens_code (d : Declaration) :
    d.code.fromPartialTokens = fromPartialText d bare := by
  have hname : d.code.partialName.token = _ := token_joined hbare "Partial" d.name
  simp only [Code.fromPartialTokens, fromPartialText, bracketed, hname, fallbacks_code,
    List.flatMap_map, Assignment.fallbackTokens_eq, List.append_assoc, List.cons_append,
    List.nil_append]

theorem accessorTokens_code (d : Declaration) :
    d.code.accessors.flatMap Accessor.tokens = accessorsText d bare := by
  rw [accessors_code, List.flatMap_assoc, accessorsText]
  congr 1
  funext s
  simp only [Setting.accessors, List.map_cons, List.map_nil, List.flatMap_cons, List.flatMap_nil,
    Accessor.tokens_eq, Accessor.functionName, functionText, Name.joined, hbare, List.append_nil,
    List.append_assoc]

theorem nestedTokens_code (d : Declaration) : d.code.nestedTokens = nestedText d bare := by
  have hname : d.code.name.token = .word d.name.text := rfl
  have hpartialName : d.code.partialName.token = _ := token_joined hbare "Partial" d.name
  simp only [Code.nestedTokens, nestedText, bracketed, hname, hpartialName, List.append_assoc,
    List.cons_append, List.nil_append]

/-- **The code token by token.** -/
theorem tokens_code (d : Declaration) : d.code.tokens = codeText d bare Setting.partialType := by
  have himpl : fixed "impl" = [word "impl"] := by decide
  have hname : d.code.name.token = .word d.name.text := rfl
  rw [Code.tokens, Code.functionTokens, structTokens_code, partialTokens_code hbare,
    fromPartialTokens_code hbare, readingTokens_eq, accessorTokens_code hbare, defaultTokens_code,
    nestedTokens_code hbare, himpl, hname]
  simp only [codeText, bracketed, List.append_assoc, List.cons_append, List.nil_append]

end Bare

/-! ## Names -/

/-- The second text is the first one without the mark of a raw name. -/
def IsBare (text bare : List Char) : Prop :=
  text = "r#".toList ++ bare ∨ ¬ "r#".toList <+: text ∧ bare = text

theorem Name.isBare_bare (n : Name) : IsBare n.text n.bare := by
  have hlength : "r#".toList.length = 2 := rfl
  unfold bare
  split
  · rename_i hraw
    obtain ⟨rest, hrest⟩ := List.isPrefixOf_iff_prefix.1 hraw
    rw [← hrest, ← hlength, List.drop_left]
    exact .inl rfl
  · rename_i hraw
    exact .inr ⟨fun h => hraw (List.isPrefixOf_iff_prefix.2 h), rfl⟩

/-- What the names of the functions for a setting begin with. -/
def functionStarts : List String := ["with_", "set_", "get_"]

/-- The name of a function says what it does, and to which setting. -/
theorem functionName_inj {start start' : String} (hstart : start ∈ functionStarts)
    (hstart' : start' ∈ functionStarts) {bare bare' : List Char}
    (h : start.toList ++ bare = start'.toList ++ bare') : start = start' ∧ bare = bare' := by
  have hne : ∀ start ∈ functionStarts, start.toList ≠ [] := by decide
  have hinj : ∀ start ∈ functionStarts, ∀ start' ∈ functionStarts,
      start.toList.head? = start'.toList.head? → start = start' := by decide
  have hhead := congrArg List.head? h
  rw [List.head?_append_of_ne_nil _ (hne _ hstart),
    List.head?_append_of_ne_nil _ (hne _ hstart')] at hhead
  obtain rfl := hinj _ hstart _ hstart' hhead
  exact ⟨rfl, List.append_cancel_left h⟩

/-! ## Declarations and their code -/

/-- The tokens are the code of the declaration, whose types are read by the grammar.  There is one
function of each kind for each setting, as long as no two settings have the same bare name. -/
inductive IsCode (g : Grammar) (d : Declaration) : List Token → Prop where
  | intro {bare : List Char → List Char} {partialType : Setting → List Token}
      (isBare : ∀ text, IsBare text (bare text))
      (isPartialType : ∀ s ∈ d.settings, ∀ written rest, Takes g.type written s.type rest →
        IsPartialType s written (partialType s))
      (function_inj : ∀ s ∈ d.settings, ∀ s' ∈ d.settings,
        ∀ start ∈ functionStarts, ∀ start' ∈ functionStarts,
          start.toList ++ bare s.name.text = start'.toList ++ bare s'.name.text →
            start = start' ∧ bare s.name.text = bare s'.name.text) :
      IsCode g d (codeText d bare partialType)

theorem isCode_tokens [g.Lawful] (d : Declaration) : IsCode g d d.code.tokens := by
  obtain ⟨bare, hbare⟩ : ∃ bare : List Char → List Char, ∀ n : Name, n.bare = bare n.text :=
    ⟨fun text => Name.bare ⟨text⟩, fun _ => rfl⟩
  rw [tokens_code hbare]
  exact .intro (fun text => hbare ⟨text⟩ ▸ Name.isBare_bare ⟨text⟩)
    (fun _ _ _ _ htakes => isPartialType_partialType htakes)
    fun _ _ _ _ _ hstart _ hstart' h => functionName_inj hstart hstart' h

/-- **The parts of the code agree with each other and with the block**, and a comma after the last
setting does not matter. -/
theorem code_of_block [g.Lawful] (h : ofTokens? g tokens = some d) :
    IsCode g d d.code.tokens ∧
      ∃ header content b, tokens = block header content b ∧ BlockText g d header content b ∧
        (∀ s ∈ d.settings, ∃ written rest,
          Takes g.type written s.type rest ∧ Copies written s.type.tokens) ∧
        (∀ joint, d.settings ≠ [] → ¬ EndsInComma content →
          ofTokens? g (block header (content ++ [comma joint]) b) = some d) ∧
        ∀ front joint, content = front ++ [comma joint] →
          ofTokens? g (block header front b) = some d := by
  obtain ⟨header, content, b, htokens, htext⟩ := ofTokens?_eq_some_iff.1 h
  refine ⟨isCode_tokens d, header, content, b, htokens, htext, htext.settings_text.exists_takes,
    fun joint hne hlast => ?_, ?_⟩
  · have hcontent : content ≠ [] := by
      rintro rfl
      exact hne (settingsText_nil_iff.1 htext.settings_text)
    exact ofTokens?_eq_some_iff.2
      ⟨header, _, b, rfl, (blockText_append_comma_iff hcontent hlast joint).2 htext⟩
  · rintro front joint rfl
    obtain ⟨hne, hlast, -⟩ := htext.settings_text.of_append_comma
    exact ofTokens?_eq_some_iff.2
      ⟨header, front, b, rfl, (blockText_append_comma_iff hne hlast joint).1 htext⟩

/-- A block with a setting of each kind. -/
def threeSettings : List Token :=
  fixed "struct Settings \x7b size : usize = MAX , inner : Inner ( PartialInner = DEFAULT ) ," ++
    fixed "path : Option < Path > = None \x7d"

theorem code_of_block_threeSettings : ∃ d, ofTokens? .standard threeSettings = some d ∧
    d.settings.map (·.name.text) = ["size".toList, "inner".toList, "path".toList] ∧
    IsCode .standard d d.code.tokens ∧
      ∃ header content b, threeSettings = block header content b ∧
        BlockText .standard d header content b ∧
        (∀ s ∈ d.settings, ∃ written rest,
          Takes Grammar.standard.type written s.type rest ∧ Copies written s.type.tokens) ∧
        (∀ joint, d.settings ≠ [] → ¬ EndsInComma content →
          ofTokens? .standard (block header (content ++ [comma joint]) b) = some d) ∧
        ∀ front joint, content = front ++ [comma joint] →
          ofTokens? .standard (block header front b) = some d := by
  have hread : (ofTokens? .standard threeSettings).map (fun d => d.settings.map (·.name.text)) =
      some ["size".toList, "inner".toList, "path".toList] := by decide +kernel
  obtain ⟨d, hd, hnames⟩ := Option.map_eq_some_iff.1 hread
  exact ⟨d, hd, hnames, code_of_block hd⟩

end Declaration
end Determinization
