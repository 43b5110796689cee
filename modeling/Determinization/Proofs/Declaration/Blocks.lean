import Determinization.Proofs.Declaration.Copying

/-!
# How declarations are written

A declaration is read from a block: attributes, the words that say who can see the structure, the
keyword, the name, and between braces the settings with commas between them.  `SettingText`,
`SettingsText` and `BlockText` say how the tokens of a setting, of several settings and of a block
are put together from those of their parts.  They are what the reading accepts, neither more nor
less (`takes_readAllSettings_iff`, `ofTokens?_eq_some_iff`).

Where the types, values and attributes end is for the grammar to say.  Of the grammar four things
are needed (`Grammar.Lawful`).  Its readings are regular, so that a comma after the last setting
leaves everything before it as it is.  Attributes and visibility, which stand before the settings,
do not depend on what these are.  A type is answered with the form of a path if and only if its
tokens are spelled as a path, with the last segment that they have.  And what a reading answers with
is a copy of what it takes.  The grammar of the notation is lawful (`Grammar.lawful_standard`).

**A comma after the last setting makes no difference** (`blockText_append_comma_iff`), because the
last setting ends where it ends without the comma.
-/

namespace Determinization
namespace Declaration

variable {g : Grammar} {s : Setting} {l : List Setting} {d : Declaration}
  {tokens rest content : List Token}

/-! ## Lawful grammars -/

/-- What is needed of a grammar. -/
class Grammar.Lawful (g : Grammar) : Prop where
  attributes : Regular g.attributes
  visibility : Regular g.visibility
  type : Regular g.type
  expression : Regular g.expression
  shortsighted_attributes : Shortsighted g.attributes
  shortsighted_visibility : Shortsighted g.visibility
  /-- The form of a type is that of its tokens. -/
  exists_typePathText {taken rest : List Token} {t : Phrase (Option PathForm)} {p : PathForm}
    (h : Takes g.type taken t rest) (hp : t.form = some p) :
    ∃ l, TypePathText l taken ∧ l.getLast? = p.segments.getLast?.map Segment.shape
  /-- Tokens that are a path are read as one. -/
  form_ne_none {taken rest : List Token} {t : Phrase (Option PathForm)} {l : List Shape}
    (h : Takes g.type taken t rest) (hl : TypePathText l taken) : t.form ≠ none
  copies_attributes : CopiesFrom id [] g.attributes
  copies_visibility : CopiesFrom id [] g.visibility
  copies_type : CopiesFrom Phrase.tokens [] g.type
  copies_expression : CopiesFrom id [] g.expression

attribute [instance] Grammar.Lawful.attributes Grammar.Lawful.visibility Grammar.Lawful.type
  Grammar.Lawful.expression Grammar.Lawful.shortsighted_attributes
  Grammar.Lawful.shortsighted_visibility

/-- Commas do not count for the number of steps. -/
theorem depth_append_comma (tokens : List Token) (joint : Bool) :
    depth (tokens ++ [comma joint]) = depth tokens := by
  simp [depth, comma, Token.isComma]

theorem depth_append_cons_comma (tokens rest : List Token) (joint : Bool) :
    depth (tokens ++ comma joint :: rest) = depth (tokens ++ rest) := by
  simp [depth, comma, Token.isComma]

instance shortsighted_readAttributes : ∀ limit, Shortsighted (readAttributes limit)
  | 0 => shortsighted_failure
  | limit + 1 => by
      have hsees : Shortsighted (seesSign "#") := shortsighted_seesSign (c := '#') rfl
      have htakes : Shortsighted (readSign "#") := shortsighted_readSign (c := '#') rfl
      have hmore := shortsighted_readAttributes limit
      rw [readAttributes]
      infer_instance

instance : Regular readVisibility := by
  unfold readVisibility
  infer_instance

instance : Shortsighted readVisibility := by
  unfold readVisibility
  refine shortsighted_choice ?_ inferInstance
  infer_instance

theorem typeText_of_takes_type {taken : List Token} {t : Phrase (Option PathForm)}
    (h : Takes Grammar.standard.type taken t rest) : TypeText t.form taken := by
  have hrun : Grammar.standard.type.run (taken ++ rest) =
      (readType (depth (taken ++ rest))).run (taken ++ rest) :=
    run_get_bind (fun tokens => readType (depth tokens)) _
  rw [Takes, hrun] at h
  exact (spelledUpTo _).type h

instance Grammar.lawful_standard : Grammar.standard.Lawful where
  attributes := regular_get_bind depth_append_comma fun _ => inferInstance
  visibility := inferInstanceAs (Regular readVisibility)
  type := regular_get_bind depth_append_comma fun _ => inferInstance
  expression := regular_get_bind (g := fun limit => do return (← readExpression limit).tokens)
    depth_append_comma fun _ => inferInstance
  shortsighted_attributes := shortsighted_get_bind depth_append_cons_comma fun _ => inferInstance
  shortsighted_visibility := inferInstanceAs (Shortsighted readVisibility)
  exists_typePathText h hp := by
    obtain ⟨path, rfl, hleading, hpath⟩ := (typeText_of_takes_type h).path _ hp
    exact ⟨_, .plain hleading hpath, List.getLast?_map⟩
  form_ne_none h hl hnone := by
    obtain ⟨t, more, rfl, ht⟩ := (typeText_of_takes_type h).other hnone
    obtain ⟨t', more', heq, ht'⟩ := hl.exists_cons
    obtain ⟨rfl, -⟩ := List.cons.inj heq
    exact ht.not_beginsPath ht'
  copies_attributes := .look fun _ => (copyingUpTo _).attributes
  copies_visibility := copies_readVisibility
  copies_type := .look fun _ => (copyingUpTo _).type
  copies_expression := .look fun _ => .bind (copyingUpTo _).expression fun _ => .pure rfl

/-! ## Optional types -/

theorem Segment.isOption_iff {s : Segment} :
    s.isOption = true ↔ s.shape = ⟨.word "Option".toList, some [.type]⟩ := by
  obtain ⟨word, tokens, arguments⟩ := s
  rw [isOption, Bool.and_eq_true, Token.isWord, beq_iff_eq, shape, Shape.mk.injEq]
  refine and_congr_right fun _ => ?_
  rcases arguments with _ | _ | ⟨a, _ | ⟨a', l⟩⟩ <;> simp

/-- **A type is taken for an optional one just if it is spelled so.** -/
theorem isOption_iff [hg : g.Lawful] {taken : List Token} {t : Phrase (Option PathForm)}
    (h : Takes g.type taken t rest) :
    t.form.any (·.isOption) = true ↔ SpelledOptional taken := by
  constructor
  · intro hoption
    obtain ⟨p, hform, hp⟩ := (Option.any_eq_true _ _).1 hoption
    obtain ⟨last, hlast, hs⟩ := (Option.any_eq_true _ _).1 hp
    obtain ⟨l, hl, hshape⟩ := hg.exists_typePathText h hform
    rw [hlast, Option.map_some, Segment.isOption_iff.1 hs] at hshape
    obtain ⟨front, rfl⟩ := List.getLast?_eq_some_iff.1 hshape
    exact ⟨front, hl⟩
  · rintro ⟨front, hl⟩
    obtain ⟨p, hform⟩ := Option.ne_none_iff_exists'.1 (hg.form_ne_none h hl)
    obtain ⟨l, hl', hshape⟩ := hg.exists_typePathText h hform
    rw [hl'.unique hl, List.getLast?_concat] at hshape
    obtain ⟨last, hlast, hs⟩ := Option.map_eq_some_iff.1 hshape.symm
    have hoption : last.isOption = true := Segment.isOption_iff.2 hs
    rw [hform, Option.any_some, PathForm.isOption, hlast, Option.any_some, hoption]

/-! ## Settings -/

/-- The tokens are how the setting is written, if the rest follows. -/
inductive SettingText (g : Grammar) (s : Setting) : List Token → List Token → Prop where
  /-- A name, a type and a value. -/
  | plain {attributes type value rest : List Token} {colon equals : Bool}
      (attributes_takes : Takes g.attributes attributes s.attributes
        (s.name.token :: .mark ':' colon :: (type ++ .mark '=' equals :: (value ++ rest))))
      (name_valid : s.name.IsValid)
      (type_takes : Takes g.type type s.type (.mark '=' equals :: (value ++ rest)))
      (own_eq : s.ownPartialType? = none)
      (value_takes : Takes g.expression value s.fallback rest)
      (attributes_copied : Copies attributes s.attributes)
      (type_copied : Copies type s.type.tokens)
      (value_copied : Copies value s.fallback) :
      SettingText g s (attributes ++ s.name.token :: .mark ':' colon ::
        (type ++ .mark '=' equals :: value)) rest
  /-- A name, a type, and in parentheses another type and a value. -/
  | nested {attributes type own value rest : List Token} {colon equals : Bool} {b : Bracket}
      {ownType : Phrase (Option PathForm)}
      (attributes_takes : Takes g.attributes attributes s.attributes
        (s.name.token :: .mark ':' colon :: (type ++ .opening .round ::
          (own ++ .mark '=' equals :: value ++ .closing b :: rest))))
      (name_valid : s.name.IsValid)
      (type_takes : Takes g.type type s.type
        (.opening .round :: (own ++ .mark '=' equals :: value ++ .closing b :: rest)))
      (balanced : Balanced (own ++ .mark '=' equals :: value))
      (own_takes : Takes g.type own ownType (.mark '=' equals :: value))
      (own_eq : s.ownPartialType? = some ownType.tokens)
      (value_takes : Takes g.expression value s.fallback [])
      (attributes_copied : Copies attributes s.attributes)
      (type_copied : Copies type s.type.tokens)
      (own_copied : Copies own ownType.tokens)
      (value_copied : Copies value s.fallback) :
      SettingText g s (attributes ++ s.name.token :: .mark ':' colon :: (type ++ .opening .round ::
        (own ++ .mark '=' equals :: value ++ [.closing b]))) rest

/-- The tokens are how the settings are written, with commas between them and perhaps one at the
end. -/
inductive SettingsText (g : Grammar) : List Setting → List Token → Prop where
  | nil : SettingsText g [] []
  | last {s : Setting} {tokens : List Token} (h : SettingText g s tokens []) :
      SettingsText g [s] tokens
  | cons {s : Setting} {l : List Setting} {tokens more : List Token} {joint : Bool}
      (h : SettingText g s tokens (comma joint :: more)) (hmore : SettingsText g l more) :
      SettingsText g (s :: l) (tokens ++ comma joint :: more)

theorem SettingText.ne_nil (h : SettingText g s tokens rest) : tokens ≠ [] := by
  cases h <;> simp

/-- In the text of a setting its type is read and copied. -/
theorem SettingText.exists_takes (h : SettingText g s tokens rest) :
    ∃ written rest, Takes g.type written s.type rest ∧ Copies written s.type.tokens := by
  cases h with
  | plain _ _ htype _ _ _ hcopied => exact ⟨_, _, htype, hcopied⟩
  | nested _ _ htype _ _ _ _ _ hcopied => exact ⟨_, _, htype, hcopied⟩

theorem SettingsText.exists_takes (h : SettingsText g l tokens) :
    ∀ s ∈ l, ∃ written rest, Takes g.type written s.type rest ∧ Copies written s.type.tokens := by
  induction h with
  | nil => exact List.forall_mem_nil _
  | last h => exact List.forall_mem_singleton.2 h.exists_takes
  | cons h _ ih => exact List.forall_mem_cons.2 ⟨h.exists_takes, ih⟩

/-- What is done after a setting. -/
def afterSetting (g : Grammar) (limit : Nat) (s : Setting) : Reading (List Setting) := do
  if ← isAtEnd then return [s]
  let _ ← readSign ","
  let more ← readSettings g limit
  return s :: more

theorem run_readSettings_cons (limit : Nat) (t : Token) (tokens : List Token) :
    (readSettings g (limit + 1)).run (t :: tokens) =
      (readSetting g >>= afterSetting g limit).run (t :: tokens) := rfl

theorem run_afterSetting_nil (limit : Nat) (s : Setting) :
    (afterSetting g limit s).run [] = some ([s], []) := rfl

theorem run_afterSetting_cons (limit : Nat) (s : Setting) (t : Token) (tokens : List Token) :
    (afterSetting g limit s).run (t :: tokens) =
      ((readSign ",").run (t :: tokens)).bind fun p =>
        ((readSettings g limit).run p.2).map fun q => (s :: q.1, q.2) := by
  have hrun : (afterSetting g limit s).run (t :: tokens) =
      ((readSign ",").run (t :: tokens)).bind fun p =>
        ((readSettings g limit).run p.2).bind fun q => some (s :: q.1, q.2) := rfl
  rw [hrun]
  congr 1
  funext p
  cases (readSettings g limit).run p.2 <;> rfl

theorem settingsText_nil_iff : SettingsText g l [] ↔ l = [] := by
  constructor
  · intro h
    generalize htokens : ([] : List Token) = tokens at h
    cases h with
    | nil => rfl
    | last h => exact absurd htokens.symm h.ne_nil
    | cons h _ => simp at htokens
  · rintro rfl
    exact .nil

/-- Is the last token a comma? -/
def EndsInComma (tokens : List Token) : Prop := ∃ front joint, tokens = front ++ [comma joint]

theorem EndsInComma.append (h : EndsInComma rest) (front : List Token) :
    EndsInComma (front ++ rest) := by
  obtain ⟨middle, joint, rfl⟩ := h
  exact ⟨front ++ middle, joint, (List.append_assoc _ _ _).symm⟩

theorem EndsInComma.of_append {front : List Token} (h : EndsInComma (front ++ rest))
    (hrest : rest ≠ []) : EndsInComma rest := by
  obtain ⟨middle, joint, heq⟩ := h
  rcases List.eq_nil_or_concat rest with rfl | ⟨before, t, rfl⟩
  · exact absurd rfl hrest
  · rw [List.concat_eq_append, ← List.append_assoc] at heq
    obtain ⟨-, ht⟩ := List.append_inj' heq rfl
    exact ⟨before, joint, by rw [List.concat_eq_append, ht]⟩

/-- After a comma that is not the last token, something follows that does not end in one. -/
theorem ne_nil_and_not_endsInComma {front : List Token} {joint : Bool}
    (h : ¬ EndsInComma (front ++ comma joint :: rest)) : rest ≠ [] ∧ ¬ EndsInComma rest := by
  constructor
  · rintro rfl
    exact h ⟨front, joint, rfl⟩
  · intro hrest
    exact h ((hrest.append [comma joint]).append front)

section Lawful

variable [hg : g.Lawful]

instance : Regular (readValue g) := by
  unfold readValue
  infer_instance

instance : Regular (readFallback g) := by
  unfold readFallback
  infer_instance

instance : Regular (readSetting g) := by
  unfold readSetting
  infer_instance

/-- An equals sign and a value. -/
theorem takes_readValue_iff {fallback taken : List Token} :
    Takes (readValue g) taken fallback rest ↔
      ∃ equals value, taken = .mark '=' equals :: value ∧
        Takes g.expression value fallback rest := by
  rw [readValue, takes_bind_iff]
  constructor
  · rintro ⟨_, value, _, rfl, hsign, hvalue⟩
    obtain ⟨equals, rfl, -⟩ := (takes_readSign_iff (c := '=') rfl).1 hsign
    exact ⟨equals, value, rfl, hvalue⟩
  · rintro ⟨equals, value, rfl, hvalue⟩
    have hsign : Takes (readSign "=") [.mark '=' equals] [.mark '=' equals] (value ++ rest) :=
      (takes_readSign_iff (c := '=') rfl).2 ⟨equals, rfl, rfl⟩
    exact ⟨[.mark '=' equals], value, _, rfl, hsign, hvalue⟩

/-- The value alone. -/
theorem takes_valueAlone_iff {own? : Option (List Token)} {fallback taken : List Token} :
    Takes (do return (none, ← readValue g)) taken (own?, fallback) rest ↔
      ∃ equals value, taken = .mark '=' equals :: value ∧ own? = none ∧
        Takes g.expression value fallback rest := by
  rw [takes_bind_iff]
  constructor
  · rintro ⟨first, second, _, rfl, hvalue, hpure⟩
    obtain ⟨rfl, heq⟩ := takes_pure_iff.1 hpure
    cases heq
    obtain ⟨equals, value, rfl, hvalue⟩ := takes_readValue_iff.1 hvalue
    exact ⟨equals, value, List.append_nil _, rfl, hvalue⟩
  · rintro ⟨equals, value, rfl, rfl, hvalue⟩
    exact ⟨_, [], fallback, (List.append_nil _).symm,
      takes_readValue_iff.2 ⟨equals, value, rfl, hvalue⟩, takes_pure_iff.2 ⟨rfl, rfl⟩⟩

/-- What stands in the parentheses. -/
theorem takes_typeAndValue_iff {own? : Option (List Token)} {fallback content : List Token} :
    Takes (do
        let type ← g.type
        let value ← readValue g
        return (some type.tokens, value)) content (own?, fallback) [] ↔
      ∃ own equals value ownType, content = own ++ .mark '=' equals :: value ∧
        Takes g.type own ownType (.mark '=' equals :: value) ∧ own? = some ownType.tokens ∧
        Takes g.expression value fallback [] := by
  rw [takes_bind_iff]
  constructor
  · rintro ⟨own, second, ownType, rfl, htype, hsecond⟩
    obtain ⟨_, third, _, rfl, hvalue, hpure⟩ := takes_bind_iff.1 hsecond
    obtain ⟨rfl, heq⟩ := takes_pure_iff.1 hpure
    cases heq
    obtain ⟨equals, value, rfl, hvalue⟩ := takes_readValue_iff.1 hvalue
    refine ⟨own, equals, value, ownType, by rw [List.append_nil], ?_, rfl, hvalue⟩
    simpa using htype
  · rintro ⟨own, equals, value, ownType, rfl, htype, rfl, hvalue⟩
    refine ⟨own, .mark '=' equals :: value, ownType, rfl, by rwa [List.append_nil], ?_⟩
    exact takes_bind_iff.2 ⟨_, [], fallback, (List.append_nil _).symm,
      takes_readValue_iff.2 ⟨equals, value, rfl, hvalue⟩, takes_pure_iff.2 ⟨rfl, rfl⟩⟩

/-- The type in parentheses and the value, or the value alone. -/
theorem takes_readFallback_iff {own? : Option (List Token)} {fallback taken : List Token} :
    Takes (readFallback g) taken (own?, fallback) rest ↔
      (∃ equals value, taken = .mark '=' equals :: value ∧ own? = none ∧
        Takes g.expression value fallback rest) ∨
      ∃ own equals value b ownType, taken = .opening .round ::
          (own ++ .mark '=' equals :: value ++ [.closing b]) ∧
        Balanced (own ++ .mark '=' equals :: value) ∧
        Takes g.type own ownType (.mark '=' equals :: value) ∧ own? = some ownType.tokens ∧
        Takes g.expression value fallback [] := by
  have hchoice : Takes (readFallback g) taken (own?, fallback) rest ↔
      Takes (if (((taken ++ rest).head?.map (· == Token.opening .round)).getD false) = true then
          inside .round (do
            let type ← g.type
            let value ← readValue g
            return (some type.tokens, value))
        else do return (none, ← readValue g)) taken (own?, fallback) rest := Iff.rfl
  rw [hchoice]
  constructor
  · intro h
    split at h
    · obtain ⟨content, b, rfl, hbalanced, hcontent⟩ := takes_inside_iff.1 h
      obtain ⟨own, equals, value, ownType, rfl, htype, hown, hvalue⟩ :=
        takes_typeAndValue_iff.1 hcontent
      exact .inr ⟨own, equals, value, b, ownType, rfl, hbalanced, htype, hown, hvalue⟩
    · exact .inl (takes_valueAlone_iff.1 h)
  · rintro (⟨equals, value, rfl, hown, hvalue⟩ |
      ⟨own, equals, value, b, ownType, rfl, hbalanced, htype, hown, hvalue⟩)
    · exact takes_valueAlone_iff.2 ⟨equals, value, rfl, hown, hvalue⟩
    · exact takes_inside_iff.2 ⟨_, b, rfl, hbalanced,
        takes_typeAndValue_iff.2 ⟨own, equals, value, ownType, rfl, htype, hown, hvalue⟩⟩

/-- A setting is read part by part. -/
theorem takes_readSetting {attributes type valued : List Token} {colon : Bool}
    (hattributes : Takes g.attributes attributes s.attributes
      (s.name.token :: .mark ':' colon :: (type ++ (valued ++ rest))))
    (hname : s.name.IsValid) (htype : Takes g.type type s.type (valued ++ rest))
    (hfallback : Takes (readFallback g) valued (s.ownPartialType?, s.fallback) rest) :
    Takes (readSetting g) (attributes ++ s.name.token :: .mark ':' colon :: (type ++ valued)) s
      rest := by
  have hcolon : Takes (readSign ":") [.mark ':' colon] [.mark ':' colon]
      (type ++ valued ++ rest) := (takes_readSign_iff (c := ':') rfl).2 ⟨colon, rfl, rfl⟩
  refine takes_bind_iff.2 ⟨attributes, _, _, rfl, by simpa using hattributes, ?_⟩
  refine takes_bind_iff.2 ⟨[s.name.token], _, _, rfl, takes_readName_iff.2 ⟨rfl, hname⟩, ?_⟩
  refine takes_bind_iff.2 ⟨[.mark ':' colon], _, _, rfl, hcolon, ?_⟩
  refine takes_bind_iff.2 ⟨type, valued, _, rfl, htype, ?_⟩
  exact takes_bind_iff.2 ⟨valued, [], _, (List.append_nil _).symm, hfallback,
    takes_pure_iff.2 ⟨rfl, rfl⟩⟩

/-- **A setting is read from its text and from nothing else.** -/
theorem takes_readSetting_iff {taken : List Token} :
    Takes (readSetting g) taken s rest ↔ SettingText g s taken rest := by
  unfold readSetting
  constructor
  · intro h
    obtain ⟨attributes, afterAttributes, _, rfl, hattributes, hnamed⟩ := takes_bind_iff.1 h
    obtain ⟨_, afterName, _, rfl, hname, htyped⟩ := takes_bind_iff.1 hnamed
    obtain ⟨rfl, hvalid⟩ := takes_readName_iff.1 hname
    obtain ⟨_, afterColon, _, rfl, hcolon, hrest⟩ := takes_bind_iff.1 htyped
    obtain ⟨colon, rfl, -⟩ := (takes_readSign_iff (c := ':') rfl).1 hcolon
    obtain ⟨type, afterType, _, rfl, htype, hlast⟩ := takes_bind_iff.1 hrest
    obtain ⟨valued, _, ⟨own?, fallback⟩, rfl, hfallback, hpure⟩ := takes_bind_iff.1 hlast
    obtain ⟨rfl, rfl⟩ := takes_pure_iff.1 hpure
    rw [List.append_nil] at hattributes htype ⊢
    have hattributesCopied := hg.copies_attributes.copies hattributes
    have htypeCopied := hg.copies_type.copies htype
    obtain ⟨equals, value, rfl, hown, hvalue⟩ |
      ⟨own, equals, value, b, ownType, rfl, hbalanced, hownType, hown, hvalue⟩ :=
      takes_readFallback_iff.1 hfallback
    · refine .plain (s := ⟨_, _, _, _, _⟩) ?_ hvalid ?_ hown hvalue hattributesCopied
        htypeCopied (hg.copies_expression.copies hvalue)
      · simpa using hattributes
      · simpa using htype
    · refine .nested (s := ⟨_, _, _, _, _⟩) ?_ hvalid ?_ hbalanced hownType hown hvalue
        hattributesCopied htypeCopied (hg.copies_type.copies hownType)
        (hg.copies_expression.copies hvalue)
      · simpa using hattributes
      · simpa using htype
  · rintro (⟨hattributes, hvalid, htype, hown, hvalue, -, -, -⟩ |
      ⟨hattributes, hvalid, htype, hbalanced, hownType, hown, hvalue, -, -, -, -⟩)
    · exact takes_readSetting hattributes hvalid htype
        (takes_readFallback_iff.2 (.inl ⟨_, _, rfl, hown, hvalue⟩))
    · refine takes_readSetting ?_ hvalid ?_
        (takes_readFallback_iff.2 (.inr ⟨_, _, _, _, _, rfl, hbalanced, hownType, hown, hvalue⟩))
      · simpa using hattributes
      · simpa using htype

/-! ## Lists of settings -/

/-- Settings are read up to the end, and they are what the tokens say. -/
theorem settingsText_of_run {limit : Nat} (h : (readSettings g limit).run tokens = some (l, rest)) :
    rest = [] ∧ SettingsText g l tokens := by
  induction limit generalizing tokens l with
  | zero => cases h
  | succ limit ih =>
      cases tokens with
      | nil =>
          cases h
          exact ⟨rfl, .nil⟩
      | cons t tokens =>
          rw [run_readSettings_cons] at h
          obtain ⟨s, afterFirst, hsetting, hafter⟩ := exists_run_of_bind h
          obtain ⟨taken, htokens, htaken⟩ := exists_takes (r := readSetting g) hsetting
          have htext := takes_readSetting_iff.1 htaken
          rw [htokens]
          cases afterFirst with
          | nil =>
              cases hafter
              rw [List.append_nil]
              exact ⟨rfl, .last htext⟩
          | cons t' afterFirst =>
              rw [run_afterSetting_cons] at hafter
              obtain ⟨⟨_, more⟩, hcomma, hmap⟩ := Option.bind_eq_some_iff.1 hafter
              obtain ⟨⟨l, rest⟩, hmore, heq⟩ := Option.map_eq_some_iff.1 hmap
              cases heq
              obtain ⟨first, hfirst⟩ := suffix_of_readSign hcomma
              rw [← hfirst] at hcomma htext ⊢
              obtain ⟨joint, rfl, -⟩ := takes_readComma_iff.1 hcomma
              obtain ⟨hrest, hl⟩ := ih hmore
              exact ⟨hrest, .cons htext hl⟩

/-- The first setting is read from its text. -/
theorem run_readSettings_of_text {taken : List Token} (h : SettingText g s taken rest)
    (limit : Nat) :
    (readSettings g (limit + 1)).run (taken ++ rest) = (afterSetting g limit s).run rest := by
  have htakes : (readSetting g).run (taken ++ rest) = some (s, rest) := takes_readSetting_iff.2 h
  obtain ⟨t, taken, rfl⟩ := List.exists_cons_of_ne_nil h.ne_nil
  rw [List.cons_append] at htakes ⊢
  rw [run_readSettings_cons, StateT.run_bind, htakes]
  rfl

/-- Settings that the tokens write are read. -/
theorem run_of_settingsText (h : SettingsText g l tokens) {limit : Nat}
    (hlimit : tokens.length < limit) : (readSettings g limit).run tokens = some (l, []) := by
  induction h generalizing limit with
  | nil =>
      obtain ⟨limit, rfl⟩ := Nat.exists_eq_add_one_of_ne_zero (Nat.ne_zero_of_lt hlimit)
      rfl
  | @last s tokens h =>
      obtain ⟨limit, rfl⟩ := Nat.exists_eq_add_one_of_ne_zero (Nat.ne_zero_of_lt hlimit)
      have hrun := run_readSettings_of_text h limit
      rwa [List.append_nil, run_afterSetting_nil] at hrun
  | @cons s l tokens more joint h hmore ih =>
      obtain ⟨limit, rfl⟩ := Nat.exists_eq_add_one_of_ne_zero (Nat.ne_zero_of_lt hlimit)
      have hmore' : (readSettings g limit).run more = some (l, []) := by
        refine ih ?_
        simp only [List.length_append, List.length_cons] at hlimit
        omega
      have hcomma : (readSign ",").run (comma joint :: more) = some ([comma joint], more) :=
        takes_readComma_iff.2 ⟨joint, rfl, rfl⟩
      rw [run_readSettings_of_text h, run_afterSetting_cons, hcomma, Option.bind_some, hmore',
        Option.map_some]

/-- **The settings that are read are those that the tokens write.** -/
theorem takes_readAllSettings_iff :
    Takes (readAllSettings g) tokens l [] ↔ SettingsText g l tokens := by
  have hrun : (readAllSettings g).run (tokens ++ []) =
      (readSettings g ((tokens ++ []).length + 1)).run (tokens ++ []) := rfl
  rw [Takes, hrun, List.append_nil]
  exact ⟨fun h => (settingsText_of_run h).2, fun h => run_of_settingsText h (Nat.lt_succ_self _)⟩

/-! ## A comma at the end -/

/-- A setting ends where it ends without the comma. -/
theorem settingText_append_comma_iff (rest : List Token) (joint : Bool) :
    SettingText g s tokens (rest ++ [comma joint]) ↔ SettingText g s tokens rest := by
  rw [← takes_readSetting_iff, ← takes_readSetting_iff, takes_append_comma_iff]

/-- No setting ends in a comma. -/
theorem not_settingText_of_endsInComma (h : EndsInComma tokens) : ¬ SettingText g s tokens [] := by
  obtain ⟨front, joint, rfl⟩ := h
  intro htext
  have htakes : (readSetting g).run (front ++ [comma joint] ++ []) = some (s, []) :=
    takes_readSetting_iff.2 htext
  rw [List.append_nil, Regular.append_comma] at htakes
  obtain ⟨p, -, heq⟩ := Option.map_eq_some_iff.1 htakes
  simp at heq

/-- Before a comma at the end stand settings that are the same without it. -/
theorem SettingsText.of_append_comma {front : List Token} {joint : Bool}
    (h : SettingsText g l (front ++ [comma joint])) :
    front ≠ [] ∧ ¬ EndsInComma front ∧ SettingsText g l front := by
  generalize hall : front ++ [comma joint] = all at h
  induction h generalizing front with
  | nil => simp at hall
  | last h => exact absurd h (not_settingText_of_endsInComma ⟨front, joint, hall.symm⟩)
  | @cons s l taken more joint' h hmore ih =>
      rcases List.eq_nil_or_concat more with rfl | ⟨middle, t, rfl⟩
      · -- the comma after the first setting is the one at the end
        obtain ⟨rfl, -⟩ := List.append_inj' hall rfl
        have hfirst : SettingText g s front [] := (settingText_append_comma_iff [] joint').1 h
        rw [settingsText_nil_iff.1 hmore]
        exact ⟨h.ne_nil, fun hends => not_settingText_of_endsInComma hends hfirst, .last hfirst⟩
      · have hsplit : front ++ [comma joint] = (taken ++ comma joint' :: middle) ++ [t] := by
          simpa using hall
        obtain ⟨rfl, heq⟩ := List.append_inj' hsplit rfl
        obtain rfl := (List.cons.inj heq).1
        obtain ⟨hne, hlast, hmiddle⟩ := @ih middle (List.concat_eq_append).symm
        refine ⟨by simp, fun hends => hlast ?_, .cons ?_ hmiddle⟩
        · rw [← List.singleton_append, ← List.append_assoc] at hends
          exact hends.of_append hne
        · refine (settingText_append_comma_iff _ joint).1 ?_
          simpa using h

/-- **A comma after the last setting makes no difference.** -/
theorem settingsText_append_comma_iff (hne : tokens ≠ []) (hlast : ¬ EndsInComma tokens)
    (joint : Bool) : SettingsText g l (tokens ++ [comma joint]) ↔ SettingsText g l tokens := by
  refine ⟨fun h => h.of_append_comma.2.2, fun h => ?_⟩
  induction h with
  | nil => exact absurd rfl hne
  | last h => exact .cons ((settingText_append_comma_iff [] joint).2 h) .nil
  | @cons s l taken more joint' h hmore ih =>
      obtain ⟨hmoreNe, hmoreLast⟩ := ne_nil_and_not_endsInComma hlast
      rw [List.append_assoc]
      exact .cons ((settingText_append_comma_iff _ joint).2 h) (ih hmoreNe hmoreLast)

end Lawful

/-! ## Blocks -/

/-- The tokens are how the declaration begins, if the rest follows. -/
inductive HeaderText (g : Grammar) (d : Declaration) : List Token → List Token → Prop where
  | intro {attributes visibility rest : List Token}
      (attributes_takes : Takes g.attributes attributes d.attributes
        (visibility ++ .word "struct".toList :: d.name.token :: rest))
      (visibility_takes : Takes g.visibility visibility d.visibility
        (.word "struct".toList :: d.name.token :: rest))
      (name_valid : d.name.IsValid)
      (attributes_copied : Copies attributes d.attributes)
      (visibility_copied : Copies visibility d.visibility) :
      HeaderText g d (attributes ++ (visibility ++ [.word "struct".toList, d.name.token])) rest

/-- Tokens with others in braces after them. -/
def block (header content : List Token) (b : Bracket) : List Token :=
  header ++ .opening .curly :: (content ++ [.closing b])

/-- The declaration is written with these tokens before the braces and these between them. -/
structure BlockText (g : Grammar) (d : Declaration) (header content : List Token) (b : Bracket) :
    Prop where
  header_text : HeaderText g d header (.opening .curly :: (content ++ [.closing b]))
  balanced : Balanced content
  settings_text : SettingsText g d.settings content

section Lawful

variable [hg : g.Lawful]

/-- What a declaration begins with is read part by part. -/
theorem takes_read {attributes visibility braces : List Token}
    (hattributes : Takes g.attributes attributes d.attributes
      (visibility ++ .word "struct".toList :: d.name.token :: braces))
    (hvisibility : Takes g.visibility visibility d.visibility
      (.word "struct".toList :: d.name.token :: braces))
    (hname : d.name.IsValid)
    (hbraces : Takes (inside .curly (readAllSettings g)) braces d.settings []) :
    Takes (read g) (attributes ++ (visibility ++ [.word "struct".toList, d.name.token]) ++ braces) d
      [] := by
  have htokens : attributes ++ (visibility ++ [.word "struct".toList, d.name.token]) ++ braces =
      attributes ++ (visibility ++ ([.word "struct".toList] ++ ([d.name.token] ++ braces))) := by
    simp
  rw [htokens]
  unfold read
  refine takes_bind_iff.2 ⟨attributes, _, _, rfl, by simpa using hattributes, ?_⟩
  refine takes_bind_iff.2 ⟨visibility, _, _, rfl, by simpa using hvisibility, ?_⟩
  refine takes_bind_iff.2 ⟨[.word "struct".toList], _, _, rfl, takes_readWord_iff.2 ⟨rfl, rfl⟩, ?_⟩
  refine takes_bind_iff.2 ⟨[d.name.token], _, _, rfl, takes_readName_iff.2 ⟨rfl, hname⟩, ?_⟩
  exact takes_bind_iff.2 ⟨braces, [], _, (List.append_nil _).symm, hbraces,
    takes_pure_iff.2 ⟨rfl, rfl⟩⟩

/-- **The declaration that tokens are is the one that they write.** -/
theorem ofTokens?_eq_some_iff :
    ofTokens? g tokens = some d ↔ ∃ header content b,
      tokens = block header content b ∧ BlockText g d header content b := by
  have htakes : ofTokens? g tokens = some d ↔ Takes (read g) tokens d [] := by
    rw [ofTokens?, Takes, List.append_nil]
    rcases (read g).run tokens with _ | ⟨d', _ | ⟨t, left⟩⟩ <;> simp
  rw [htakes]
  constructor
  · intro h
    unfold read at h
    obtain ⟨attributes, afterAttributes, _, rfl, hattributes, hseen⟩ := takes_bind_iff.1 h
    obtain ⟨visibility, afterVisibility, _, rfl, hvisibility, hword⟩ := takes_bind_iff.1 hseen
    obtain ⟨_, afterWord, _, rfl, hstruct, hnamed⟩ := takes_bind_iff.1 hword
    obtain ⟨rfl, -⟩ := takes_readWord_iff.1 hstruct
    obtain ⟨_, afterName, name, rfl, hname, hbraces⟩ := takes_bind_iff.1 hnamed
    obtain ⟨rfl, hvalid⟩ := takes_readName_iff.1 hname
    obtain ⟨_, _, settings, rfl, hinside, hpure⟩ := takes_bind_iff.1 hbraces
    obtain ⟨rfl, rfl⟩ := takes_pure_iff.1 hpure
    obtain ⟨content, b, rfl, hbalanced, hcontent⟩ := takes_inside_iff.1 hinside
    have htext := takes_readAllSettings_iff.1 hcontent
    refine ⟨attributes ++ (visibility ++ [.word "struct".toList, name.token]), content, b,
      by simp [block], ⟨⟨?_, ?_, hvalid, hg.copies_attributes.copies hattributes,
        hg.copies_visibility.copies hvisibility⟩, hbalanced, htext⟩⟩
    · simpa using hattributes
    · simpa using hvisibility
  · rintro ⟨_, content, b, rfl, ⟨hattributes, hvisibility, hvalid, -, -⟩, hbalanced, hsettings⟩
    exact takes_read hattributes hvisibility hvalid
      (takes_inside_iff.2 ⟨content, b, rfl, hbalanced, takes_readAllSettings_iff.2 hsettings⟩)

/-- A comma farther on makes no difference to what a declaration begins with. -/
theorem headerText_comma_iff (header before after : List Token) (joint : Bool) :
    HeaderText g d header (before ++ after) ↔
      HeaderText g d header (before ++ comma joint :: after) := by
  have hattributes (taken visibility : List Token) :
      Takes g.attributes taken d.attributes
          (visibility ++ .word "struct".toList :: d.name.token :: (before ++ after)) ↔
        Takes g.attributes taken d.attributes
          (visibility ++ .word "struct".toList :: d.name.token ::
            (before ++ comma joint :: after)) := by
    have hlawful : Shortsighted g.attributes := inferInstance
    have h := @hlawful.takes_iff taken d.attributes
      (visibility ++ .word "struct".toList :: d.name.token :: before) (by simp) after joint
    simpa using h
  have hvisibility (taken : List Token) :
      Takes g.visibility taken d.visibility
          (.word "struct".toList :: d.name.token :: (before ++ after)) ↔
        Takes g.visibility taken d.visibility
          (.word "struct".toList :: d.name.token :: (before ++ comma joint :: after)) :=
    Shortsighted.takes_iff (.word "struct".toList :: d.name.token :: before) (by simp) after joint
  constructor
  · rintro ⟨h, h', hvalid, hcopied, hcopied'⟩
    exact .intro ((hattributes _ _).1 h) ((hvisibility _).1 h') hvalid hcopied hcopied'
  · rintro ⟨h, h', hvalid, hcopied, hcopied'⟩
    exact .intro ((hattributes _ _).2 h) ((hvisibility _).2 h') hvalid hcopied hcopied'

/-- **A comma after the last setting makes no difference.** -/
theorem blockText_append_comma_iff {header : List Token} {b : Bracket} (hne : content ≠ [])
    (hlast : ¬ EndsInComma content) (joint : Bool) :
    BlockText g d header (content ++ [comma joint]) b ↔ BlockText g d header content b := by
  have hheader : HeaderText g d header (.opening .curly :: (content ++ [.closing b])) ↔
      HeaderText g d header (.opening .curly :: (content ++ [comma joint] ++ [.closing b])) := by
    have h := headerText_comma_iff (g := g) (d := d) header (.opening .curly :: content)
      [.closing b] joint
    simpa using h
  have hbalanced : Balanced (content ++ [comma joint]) ↔ Balanced content := by
    rw [Balanced, Balanced, openAfter_append_comma]
  have hsettings := settingsText_append_comma_iff (l := d.settings) hne hlast joint (g := g)
  exact ⟨fun ⟨h, h', h''⟩ => ⟨hheader.2 h, hbalanced.1 h', hsettings.1 h''⟩,
    fun ⟨h, h', h''⟩ => ⟨hheader.1 h, hbalanced.2 h', hsettings.2 h''⟩⟩

end Lawful

end Declaration
end Determinization
