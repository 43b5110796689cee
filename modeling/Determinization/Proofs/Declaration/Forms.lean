import Determinization.Proofs.Declaration.Phrases
import Determinization.Proofs.Declaration.Spelling

/-!
# Types are read as they are spelled

The reading of a type answers with the form of the type: that of a path, or none.  By induction on
the limit, for all readings that a type consists of at once (`SpelledUpTo`), the tokens that are
taken are spelled as what they are taken for: arguments as arguments of their kind, segments and
paths with their words and arguments, and types without a form begin like no path (`spelledUpTo`).
Expressions occur in types only in groups, and what stands in a group does not matter here.
-/

namespace Determinization
namespace Declaration

variable {α β : Type} {r : Reading α} {f : α → Reading β} {b : β} {taken rest : List Token}

/-! ## Signs, lifetimes and constants -/

theorem takes_seesConstant_bind {f : Bool → Reading β}
    (h : Takes (seesConstant >>= f) taken b rest) :
    Takes (f (isConstantNext (taken ++ rest))) taken b rest := by
  rw [Takes, StateT.run_bind, run_seesConstant] at h
  exact h

theorem exists_colons {tokens : List Token} (h : beginsWithMarks [':', ':'] tokens = true) :
    ∃ joint more, tokens = colons joint ++ more := by
  rcases tokens with _ | ⟨t, _ | ⟨t', more⟩⟩
  · cases h
  · cases t <;> simp [beginsWithMarks] at h
  · cases t with
    | mark c joint =>
        cases t' with
        | mark c' joint' =>
            simp only [beginsWithMarks, List.isEmpty_cons, List.isEmpty_nil, Bool.false_or,
              Bool.true_or, Bool.and_true, Bool.and_eq_true, beq_iff_eq] at h
            obtain ⟨⟨rfl, rfl⟩, rfl⟩ := h
            exact ⟨joint', more, rfl⟩
        | _ => simp [beginsWithMarks] at h
    | _ => cases h

theorem colons_of_takes {a : List Token} (h : Takes (readSign "::") taken a rest) :
    ∃ joint, taken = colons joint ∧ a = taken := by
  have hlength : "::".length = 2 := rfl
  rw [Takes, run_readSign, hlength] at h
  split at h
  · rename_i hbegins
    obtain ⟨joint, more, htokens⟩ := exists_colons hbegins
    rw [htokens] at h
    obtain ⟨rfl, rfl⟩ : colons joint = a ∧ more = rest := by simpa [colons] using h
    exact ⟨joint, List.append_cancel_right htokens, (List.append_cancel_right htokens).symm⟩
  · cases h

theorem colonsText_of_takes {a : List Token} (h : Takes (readSign? "::") taken a rest) :
    ColonsText taken ∧ a = taken := by
  rw [readSign?] at h
  obtain ⟨sees, h⟩ := Looks.exists_takes h
  split at h
  · obtain ⟨joint, rfl, ha⟩ := colons_of_takes h
    exact ⟨.colons joint, ha⟩
  · obtain ⟨rfl, ha⟩ := takes_pure_iff.1 h
    exact ⟨.nil, ha.symm⟩

theorem lifetimeText_of_takes {a : List Token} (h : Takes readLifetime taken a rest) :
    LifetimeText taken := by
  rw [readLifetime] at h
  obtain ⟨quote, _, _, rfl, hquote, h⟩ := takes_bind_iff.1 h
  obtain ⟨name, _, _, rfl, hname, h⟩ := takes_bind_iff.1 h
  obtain ⟨rfl, -⟩ := takes_pure_iff.1 h
  obtain ⟨joint, rfl, -⟩ := (takes_readSign_iff (c := '\'') rfl).1 hquote
  obtain ⟨t, rfl, ht, -⟩ := takes_readToken_iff.1 hname
  cases t with
  | word text => exact ⟨joint, text, rfl⟩
  | _ => cases ht

theorem constantText_of_takes {a : List Token} (h : Takes readConstant taken a rest)
    (hnext : isConstantNext (taken ++ rest) = true) : ConstantText taken := by
  have hvalue : Regular (readToken fun t => t.isLiteral || t.isWord "true" || t.isWord "false") :=
    regular_readToken fun _ => rfl
  rw [readConstant] at h
  obtain ⟨minus, _, _, rfl, hminus, h⟩ := takes_bind_iff.1 h
  obtain ⟨value, _, _, rfl, hvalue, h⟩ := takes_bind_iff.1 h
  obtain ⟨rfl, -⟩ := takes_pure_iff.1 h
  obtain ⟨t, rfl, ht, -⟩ := takes_readToken_iff.1 hvalue
  rw [readSign?] at hminus
  obtain ⟨sees, hminus⟩ := Looks.exists_takes hminus
  split at hminus
  · obtain ⟨joint, rfl, -⟩ := (takes_readSign_iff (c := '-') rfl).1 hminus
    -- after a minus sign only a literal is a constant
    cases t with
    | literal text => exact .negative joint text
    | _ => cases hnext
  · obtain ⟨rfl, -⟩ := takes_pure_iff.1 hminus
    cases t with
    | literal text => exact .literal text
    | word text =>
        simp only [Token.isLiteral, Token.isWord, Bool.false_or, Bool.or_eq_true, beq_iff_eq,
          Token.word.injEq] at ht
        obtain rfl | rfl := ht
        · exact .yes
        · exact .no
    | _ => cases ht

theorem closed_of_takes_readWord {text : String} {a : List Token}
    (h : Takes (readWord text) taken a rest) : Closed false taken := by
  obtain ⟨rfl, -⟩ := takes_readWord_iff.1 h
  exact closed_singleton rfl

theorem closed_of_takes_readWord? {text : String} {a : List Token}
    (h : Takes (readWord? text) taken a rest) : Closed false taken := by
  rw [readWord?] at h
  obtain ⟨sees, hchoice⟩ := Looks.exists_takes h
  split at hchoice
  · exact closed_of_takes_readWord hchoice
  · obtain ⟨rfl, -⟩ := takes_pure_iff.1 hchoice
    exact closed_nil

theorem closed_of_takes_readLifetime? {a : List Token} (h : Takes readLifetime? taken a rest) :
    Closed false taken := by
  rw [readLifetime?] at h
  obtain ⟨sees, hchoice⟩ := Looks.exists_takes h
  split at hchoice
  · exact (lifetimeText_of_takes hchoice).closed
  · obtain ⟨rfl, -⟩ := takes_pure_iff.1 hchoice
    exact closed_nil

/-! ## Types -/

/-- The shape of a segment. -/
def Segment.shape (s : Segment) : Shape := ⟨s.word, s.arguments.map (·.map (·.kind))⟩

/-- The tokens are a path of this form. -/
def PathForm.IsSpelled (p : PathForm) (tokens : List Token) : Prop :=
  ∃ path, tokens = p.leading ++ path ∧ ColonsText p.leading ∧
    PathText (p.segments.map Segment.shape) path

theorem pathWord_of_takes {further : List String} (hfurther : further ⊆ ["try"]) {word : Token}
    (h : Takes (readPathWord further) taken word rest) : taken = [word] ∧ word.IsPathWord := by
  rw [readPathWord_eq, takes_takeFirst_iff] at h
  obtain ⟨t, rfl, ht⟩ := h
  cases t with
  | word text =>
      simp only [pathWord?] at ht
      split at ht
      · rename_i hword
        cases ht
        have htry : (["self", "Self", "super", "crate"] ++ ["try"]).any (·.toList == text) ||
            (Name.ofWord? text).isSome := by
          obtain hleads | hname := Bool.or_eq_true_iff.1 hword
          · obtain ⟨k, hk, htext⟩ := List.any_eq_true.1 hleads
            refine Bool.or_eq_true_iff.2 (.inl (List.any_eq_true.2 ⟨k, ?_, htext⟩))
            exact List.append_subset.2 ⟨List.subset_append_left _ _,
              List.Subset.trans hfurther (List.subset_append_right _ _)⟩ hk
          · exact Bool.or_eq_true_iff.2 (.inr hname)
        refine ⟨rfl, ?_⟩
        rw [Token.IsPathWord, pathWord?, if_pos htry, Option.isSome_some]
      · cases ht
  | _ => cases ht

/-- A single segment with an equals sign after it is a binding. -/
theorem PathForm.IsSpelled.bindingText {p : PathForm} {tokens rest : List Token}
    (h : p.IsSpelled tokens) (hp : p.isSingle = true) (hrest : BeginsBinding rest) :
    BindingText (tokens ++ rest) := by
  obtain ⟨path, rfl, hleading, hpath⟩ := h
  rw [PathForm.isSingle, Bool.and_eq_true, List.isEmpty_iff, beq_iff_eq,
    List.length_eq_one_iff] at hp
  obtain ⟨hnil, s, hs⟩ := hp
  rw [hs] at hpath
  rw [hnil, List.nil_append]
  cases hpath with
  | last h => exact h.bindingText hrest
  | cons _ hmore => cases hmore

/-- The tokens are further segments of a path, each with a double colon before it. -/
inductive SegmentsText : List Segment → List Token → Prop where
  | nil : SegmentsText [] []
  | cons {s : Segment} {l : List Segment} {joint : Bool} {path : List Token}
      (h : PathText ((s :: l).map Segment.shape) path) :
      SegmentsText (s :: l) (colons joint ++ path)

theorem SegmentsText.pathText {s : Segment} {l : List Segment} {segment more : List Token}
    (h : SegmentsText l more) (hs : SegmentText s.shape segment) :
    PathText ((s :: l).map Segment.shape) (segment ++ more) := by
  cases h with
  | nil =>
      rw [List.append_nil]
      exact .last hs
  | cons h => exact .cons hs h

/-- The first tokens of types that are no paths. -/
inductive Token.BeginsOther : Token → Prop where
  | round : BeginsOther (.opening .round)
  | square : BeginsOther (.opening .square)
  | reference (joint : Bool) : BeginsOther (.mark '&' joint)
  | pointer (joint : Bool) : BeginsOther (.mark '*' joint)
  | never (joint : Bool) : BeginsOther (.mark '!' joint)
  | hole : BeginsOther (.word "_".toList)

/-- The tokens are a type of this form. -/
structure TypeText (form : Option PathForm) (tokens : List Token) : Prop where
  closed : Closed false tokens
  path : ∀ p, form = some p → p.IsSpelled tokens
  other : form = none → ∃ t more, tokens = t :: more ∧ t.BeginsOther

/-- Can an argument that is a type begin with the token? -/
def Token.beginsType : Token → Bool
  | .word text => text ≠ "true".toList && text ≠ "false".toList
  | .mark c _ => c ≠ '\'' && c ≠ '-'
  | .opening k => k ≠ .curly
  | _ => false

variable {t : Token} {tokens : List Token}

theorem Token.IsPathWord.beginsType (h : t.IsPathWord) : t.beginsType = true := by
  obtain ⟨text, rfl⟩ := h.exists_word
  have hyes : text ≠ "true".toList := by
    rintro rfl
    exact absurd h (by decide)
  have hno : text ≠ "false".toList := by
    rintro rfl
    exact absurd h (by decide)
  simp only [Token.beginsType, ne_eq, hyes, hno, not_false_eq_true, decide_true, Bool.and_self]

theorem Token.BeginsOther.beginsType (h : t.BeginsOther) : t.beginsType = true := by
  cases h with
  | hole => decide
  | _ => rfl

theorem Token.BeginsOther.not_beginsPath (h : t.BeginsOther) : ¬ t.BeginsPath := by
  rintro (hword | ⟨joint, rfl⟩ | ⟨opened, rfl⟩)
  · cases h with
    | hole => exact absurd hword (by decide)
    | _ => cases hword
  · cases h
  · cases h

theorem not_lifetimeText_cons (h : t.beginsType = true) : ¬ LifetimeText (t :: tokens) := by
  rintro ⟨joint, name, heq⟩
  cases heq
  cases h

theorem not_constantText_cons (h : t.beginsType = true) : ¬ ConstantText (t :: tokens) := by
  intro hconstant
  cases hconstant with
  | yes => exact absurd h (by decide)
  | no => exact absurd h (by decide)
  | _ => cases h

/-- A type that is a single group. -/
theorem typeText_group {k : Bracket} (hk : (Token.opening k).BeginsOther)
    {r : Reading (List Token)} {a : List Token} (h : Takes (readGroup k r) taken a rest) :
    TypeText none taken := by
  rw [readGroup] at h
  obtain ⟨group, _, _, rfl, hinside, hpure⟩ := takes_bind_iff.1 h
  obtain ⟨rfl, -⟩ := takes_pure_iff.1 hpure
  obtain ⟨content, b, rfl, hbalanced, -⟩ := takes_inside_iff.1 hinside
  rw [List.append_nil]
  exact ⟨closed_group hbalanced, nofun, fun _ => ⟨_, _, rfl, hk⟩⟩

/-- A type that begins with a sign of its own. -/
theorem typeText_cons (ht : t.BeginsOther) (hneutral : t.isNeutral = true)
    (h : Closed false tokens) : TypeText none (t :: tokens) :=
  ⟨.cons hneutral h, nofun, fun _ => ⟨_, _, rfl, ht⟩⟩

theorem PathForm.IsSpelled.closed {p : PathForm} (h : p.IsSpelled tokens) :
    Closed false tokens := by
  obtain ⟨path, rfl, hleading, hpath⟩ := h
  exact hleading.closed.append hpath.closed

/-- A type is an argument of that kind. -/
theorem TypeText.argumentText {form : Option PathForm} (h : TypeText form tokens) :
    ArgumentText .type tokens := by
  cases form with
  | none =>
      obtain ⟨t, more, rfl, ht⟩ := h.other rfl
      refine .type (List.cons_ne_nil _ _) h.closed (not_lifetimeText_cons ht.beginsType)
        (not_constantText_cons ht.beginsType) ?_
      rintro ⟨name, inner?, angles, rest, hname, -, -, heq⟩
      obtain ⟨rfl, -⟩ := List.cons.inj heq
      exact ht.not_beginsPath (.inl hname)
  | some p =>
      obtain ⟨path, hpath, hleading, hsegments⟩ := h.path p rfl
      generalize p.leading = leading at hpath hleading
      cases hleading with
      | nil =>
          obtain rfl : tokens = path := hpath
          obtain ⟨t, more, rfl, ht⟩ := hsegments.exists_cons
          exact .type (List.cons_ne_nil _ _) h.closed (not_lifetimeText_cons ht.beginsType)
            (not_constantText_cons ht.beginsType) hsegments.not_bindingText
      | colons joint =>
          rw [hpath]
          refine .type (List.cons_ne_nil _ _) (hpath ▸ h.closed) (not_lifetimeText_cons rfl)
            (not_constantText_cons rfl) ?_
          rintro ⟨name, inner?, angles, rest, hname, -, -, heq⟩
          obtain ⟨text, rfl⟩ := hname.exists_word
          cases heq

/-- What is read with this limit is spelled as it is understood. -/
structure SpelledUpTo (limit : Nat) : Prop where
  argument {taken rest : List Token} {a : Phrase ArgumentKind}
    (h : Takes (readArgument limit) taken a rest) : ArgumentText a.form taken
  arguments {taken rest : List Token} {l : List Argument}
    (h : Takes (readArguments limit) taken l rest) : ArgumentsText (l.map (·.kind)) taken
  segment {taken rest : List Token} {s : Segment} {further : List String}
    (hfurther : further ⊆ ["try"]) (h : Takes (readSegment limit true further) taken s rest) :
    SegmentText s.shape taken
  segments {taken rest : List Token} {l : List Segment}
    (h : Takes (readSegments limit true) taken l rest) : SegmentsText l taken
  path {taken rest : List Token} {t : Phrase PathForm}
    (h : Takes (readPath limit true) taken t rest) : t.form.IsSpelled taken
  type {taken rest : List Token} {t : Phrase (Option PathForm)}
    (h : Takes (readType limit) taken t rest) : TypeText t.form taken

theorem spelledUpTo_zero : SpelledUpTo 0 := by
  constructor <;> intros <;> rename_i h <;> exact nomatch h

section Step

variable {limit : Nat}

/-- Arguments are spelled as what they are taken for. -/
theorem argumentText_of_takes (ih : SpelledUpTo limit) {a : Phrase ArgumentKind}
    (h : Takes (readArgument (limit + 1)) taken a rest) : ArgumentText a.form taken := by
  rw [readArgument] at h
  obtain ⟨isLifetime, hchoice⟩ := Looks.exists_takes h
  split at hchoice
  · obtain ⟨lifetime, _, _, rfl, hlifetime, hpure⟩ := takes_bind_iff.1 hchoice
    obtain ⟨rfl, rfl⟩ := takes_pure_iff.1 hpure
    rw [List.append_nil]
    exact .lifetime (lifetimeText_of_takes hlifetime)
  have hother := takes_seesConstant_bind hchoice
  split at hother
  · rename_i hnext
    obtain ⟨constant, _, _, rfl, hconstant, hpure⟩ := takes_bind_iff.1 hother
    obtain ⟨rfl, rfl⟩ := takes_pure_iff.1 hpure
    rw [List.append_nil] at hnext ⊢
    exact .constant (constantText_of_takes hconstant hnext)
  obtain ⟨type, after, t, rfl, htype, hafter⟩ := takes_bind_iff.1 hother
  have htext := ih.type htype
  obtain ⟨isEquals, hbinding⟩ := Looks.exists_takes hafter
  dsimp only at hbinding
  split at hbinding
  · rename_i hsingle
    obtain ⟨p, hform, hp⟩ := (Option.any_eq_true _ _).1 (Bool.and_eq_true_iff.1 hsingle).1
    obtain ⟨_, value, _, rfl, hequals, hvalued⟩ := takes_bind_iff.1 hbinding
    obtain ⟨joint, rfl, -⟩ := (takes_readSign_iff (c := '=') rfl).1 hequals
    have hvalue := takes_seesConstant_bind hvalued
    obtain ⟨hclosed, ha⟩ : Closed false value ∧ a.form = .binding := by
      split at hvalue
      · rename_i hnext
        obtain ⟨constant, _, _, rfl, hconstant, hpure⟩ := takes_bind_iff.1 hvalue
        obtain ⟨rfl, rfl⟩ := takes_pure_iff.1 hpure
        rw [List.append_nil] at hnext ⊢
        exact ⟨(constantText_of_takes hconstant hnext).closed, rfl⟩
      · obtain ⟨type', _, _, rfl, htype', hpure⟩ := takes_bind_iff.1 hvalue
        obtain ⟨rfl, rfl⟩ := takes_pure_iff.1 hpure
        rw [List.append_nil]
        exact ⟨(ih.type htype').closed, rfl⟩
    rw [ha]
    refine .binding ?_ (htext.closed.append (.cons rfl hclosed))
    exact (htext.path p hform).bindingText hp (.equals joint value)
  · obtain ⟨rfl, rfl⟩ := takes_pure_iff.1 hbinding
    rw [List.append_nil]
    exact htext.argumentText

theorem argumentsText_of_takes (ih : SpelledUpTo limit) {l : List Argument}
    (h : Takes (readArguments (limit + 1)) taken l rest) :
    ArgumentsText (l.map (·.kind)) taken := by
  rw [readArguments] at h
  obtain ⟨isEnd, hfirst⟩ := Looks.exists_takes h
  split at hfirst
  · obtain ⟨rfl, rfl⟩ := takes_pure_iff.1 hfirst
    exact .nil
  obtain ⟨argument, _, a, rfl, hargument, hafter⟩ := takes_bind_iff.1 hfirst
  obtain ⟨isLast, hmore⟩ := Looks.exists_takes hafter
  split at hmore
  · obtain ⟨rfl, rfl⟩ := takes_pure_iff.1 hmore
    rw [List.append_nil]
    exact .last (ih.argument hargument)
  · obtain ⟨_, _, _, rfl, hcomma, hrest⟩ := exists_takes_of_bind suffix_of_readSign hmore
    obtain ⟨joint, rfl, -⟩ := (takes_readSign_iff (c := ',') rfl).1 hcomma
    obtain ⟨more, _, l, rfl, harguments, hpure⟩ := takes_bind_iff.1 hrest
    obtain ⟨rfl, rfl⟩ := takes_pure_iff.1 hpure
    rw [List.append_nil]
    exact .cons (ih.argument hargument) (ih.arguments harguments)

theorem segmentText_of_takes (ih : SpelledUpTo limit) {s : Segment} {further : List String}
    (hfurther : further ⊆ ["try"]) (h : Takes (readSegment (limit + 1) true further) taken s rest) :
    SegmentText s.shape taken := by
  rw [readSegment] at h
  obtain ⟨_, _, word, rfl, hword, hafter⟩ := takes_bind_iff.1 h
  obtain ⟨rfl, hpath⟩ := pathWord_of_takes hfurther hword
  obtain ⟨sees, hchoice⟩ := Looks.exists_takes hafter
  split at hchoice
  · obtain ⟨before, _, _, rfl, hcolons, hangle⟩ := takes_bind_iff.1 hchoice
    obtain ⟨_, _, _, rfl, hopening, hinner⟩ := takes_bind_iff.1 hangle
    obtain ⟨opened, rfl, -⟩ := (takes_readSign_iff (c := '<') rfl).1 hopening
    obtain ⟨inner, _, l, rfl, harguments, hend⟩ := takes_bind_iff.1 hinner
    obtain ⟨_, _, _, rfl, hclosing, hpure⟩ := takes_bind_iff.1 hend
    obtain ⟨closed, rfl, -⟩ := (takes_readSign_iff (c := '>') rfl).1 hclosing
    obtain ⟨rfl, rfl⟩ := takes_pure_iff.1 hpure
    exact .arguments hpath (colonsText_of_takes hcolons).1 (ih.arguments harguments)
  · obtain ⟨rfl, rfl⟩ := takes_pure_iff.1 hchoice
    exact .bare hpath

theorem segmentsText_of_takes (ih : SpelledUpTo limit) {l : List Segment}
    (h : Takes (readSegments (limit + 1) true) taken l rest) : SegmentsText l taken := by
  rw [readSegments] at h
  obtain ⟨beforeGroup, hcolons⟩ := Looks.exists_takes h
  obtain ⟨isColons, hchoice⟩ := Looks.exists_takes hcolons
  split at hchoice
  · obtain ⟨_, _, _, rfl, hcolons, hsegment⟩ := takes_bind_iff.1 hchoice
    obtain ⟨joint, rfl, -⟩ := colons_of_takes hcolons
    obtain ⟨segment, _, s, rfl, hs, hafter⟩ := takes_bind_iff.1 hsegment
    obtain ⟨more, _, l, rfl, hmore, hpure⟩ := takes_bind_iff.1 hafter
    obtain ⟨rfl, rfl⟩ := takes_pure_iff.1 hpure
    rw [List.append_nil]
    have hpath := (ih.segments hmore).pathText (ih.segment (List.Subset.refl _) hs)
    exact .cons hpath
  · obtain ⟨rfl, rfl⟩ := takes_pure_iff.1 hchoice
    exact .nil

theorem isSpelled_of_takes (ih : SpelledUpTo limit) {t : Phrase PathForm}
    (h : Takes (readPath (limit + 1) true) taken t rest) : t.form.IsSpelled taken := by
  rw [readPath] at h
  obtain ⟨_, _, leading, rfl, hleading, hafter⟩ := takes_bind_iff.1 h
  obtain ⟨sees, hfirst⟩ := Looks.exists_takes hafter
  obtain ⟨segment, _, s, rfl, hs, hmore⟩ := takes_bind_iff.1 hfirst
  obtain ⟨more, _, l, rfl, hl, hpure⟩ := takes_bind_iff.1 hmore
  obtain ⟨rfl, rfl⟩ := takes_pure_iff.1 hpure
  obtain ⟨hcolons, rfl⟩ := colonsText_of_takes hleading
  rw [List.append_nil]
  refine ⟨segment ++ more, rfl, hcolons, (ih.segments hl).pathText (ih.segment ?_ hs)⟩
  split
  · exact List.Subset.refl _
  · exact List.nil_subset _

theorem typeText_of_takes (ih : SpelledUpTo limit) {t : Phrase (Option PathForm)}
    (h : Takes (readType (limit + 1)) taken t rest) : TypeText t.form taken := by
  rw [readType] at h
  obtain ⟨isRound, hround⟩ := Looks.exists_takes h
  split at hround
  · obtain ⟨group, _, _, rfl, hgroup, hpure⟩ := takes_bind_iff.1 hround
    obtain ⟨rfl, rfl⟩ := takes_pure_iff.1 hpure
    rw [List.append_nil]
    exact typeText_group .round hgroup
  obtain ⟨isSquare, hsquare⟩ := Looks.exists_takes hround
  split at hsquare
  · obtain ⟨group, _, _, rfl, hgroup, hpure⟩ := takes_bind_iff.1 hsquare
    obtain ⟨rfl, rfl⟩ := takes_pure_iff.1 hpure
    rw [List.append_nil]
    exact typeText_group .square hgroup
  obtain ⟨isReference, hreference⟩ := Looks.exists_takes hsquare
  split at hreference
  · obtain ⟨_, _, _, rfl, hsign, hafterSign⟩ := takes_bind_iff.1 hreference
    obtain ⟨joint, rfl, -⟩ := (takes_readSign_iff (c := '&') rfl).1 hsign
    obtain ⟨lifetime, _, _, rfl, hlifetime, hafterLifetime⟩ := takes_bind_iff.1 hafterSign
    obtain ⟨change, _, _, rfl, hchange, hafterChange⟩ := takes_bind_iff.1 hafterLifetime
    obtain ⟨type, _, t, rfl, htype, hpure⟩ := takes_bind_iff.1 hafterChange
    obtain ⟨rfl, rfl⟩ := takes_pure_iff.1 hpure
    rw [List.append_nil]
    refine typeText_cons (.reference joint) rfl ?_
    exact (closed_of_takes_readLifetime? hlifetime).append
      ((closed_of_takes_readWord? hchange).append (ih.type htype).closed)
  obtain ⟨isPointer, hpointer⟩ := Looks.exists_takes hreference
  split at hpointer
  · obtain ⟨_, _, _, rfl, hsign, hafterSign⟩ := takes_bind_iff.1 hpointer
    obtain ⟨joint, rfl, -⟩ := (takes_readSign_iff (c := '*') rfl).1 hsign
    obtain ⟨change, _, _, rfl, hchange, hafterChange⟩ := takes_bind_iff.1 hafterSign
    obtain ⟨type, _, t, rfl, htype, hpure⟩ := takes_bind_iff.1 hafterChange
    obtain ⟨rfl, rfl⟩ := takes_pure_iff.1 hpure
    rw [List.append_nil]
    have hword : Closed false change := by
      obtain hmut | hconst := takes_orElse hchange
      · exact closed_of_takes_readWord hmut
      · exact closed_of_takes_readWord hconst
    exact typeText_cons (.pointer joint) rfl (hword.append (ih.type htype).closed)
  obtain ⟨isNever, hnever⟩ := Looks.exists_takes hpointer
  split at hnever
  · obtain ⟨_, _, _, rfl, hsign, hpure⟩ := takes_bind_iff.1 hnever
    obtain ⟨joint, rfl, -⟩ := (takes_readSign_iff (c := '!') rfl).1 hsign
    obtain ⟨rfl, rfl⟩ := takes_pure_iff.1 hpure
    exact typeText_cons (.never joint) rfl closed_nil
  obtain ⟨isHole, hhole⟩ := Looks.exists_takes hnever
  split at hhole
  · obtain ⟨_, _, _, rfl, hword, hpure⟩ := takes_bind_iff.1 hhole
    obtain ⟨rfl, -⟩ := takes_readWord_iff.1 hword
    obtain ⟨rfl, rfl⟩ := takes_pure_iff.1 hpure
    exact typeText_cons .hole rfl closed_nil
  · obtain ⟨path, _, p, rfl, hpath, hpure⟩ := takes_bind_iff.1 hhole
    obtain ⟨rfl, rfl⟩ := takes_pure_iff.1 hpure
    rw [List.append_nil]
    have hspelled := ih.path hpath
    refine ⟨hspelled.closed, ?_, fun hnone => absurd hnone (Option.some_ne_none _)⟩
    rintro _ ⟨⟩
    exact hspelled

theorem spelledUpTo_succ (ih : SpelledUpTo limit) : SpelledUpTo (limit + 1) where
  argument := argumentText_of_takes ih
  arguments := argumentsText_of_takes ih
  segment := segmentText_of_takes ih
  segments := segmentsText_of_takes ih
  path := isSpelled_of_takes ih
  type := typeText_of_takes ih

end Step

/-- **Types are read with the form of the path that they are.** -/
theorem spelledUpTo (limit : Nat) : SpelledUpTo limit := by
  induction limit with
  | zero => exact spelledUpTo_zero
  | succ limit ih => exact spelledUpTo_succ ih

end Declaration
end Determinization
