import Determinization.Proofs.Declaration.Nesting

/-!
# How paths are spelled

Whether a type is an optional one is a matter of how it is spelled: it is a path, the last segment
of the path is the word `Option`, and this word has a single argument, which is a type.  Here paths
and arguments are described by their tokens alone, whatever grammar they are read by.

* An argument between angle brackets is a lifetime, a constant, a name with `=` or a colon and what
  belongs to it, or else a type (`ArgumentText`).  No comma stands in it outside of all brackets.
* A segment is a word, and perhaps arguments with commas between them (`SegmentText`).
* A path consists of segments with double colons between them (`PathText`).
* A type that is a path may begin with a double colon, or with something in angle brackets and a
  double colon (`TypePathText`).

**Tokens are spelled as one path at most** (`PathText.unique`, `TypePathText.unique`).  Where a
bracket is closed is found by counting, and arguments of different kinds never look the same.
-/

namespace Determinization
namespace Declaration

variable {a a' tokens tokens' rest rest' : List Token} {k k' : ArgumentKind}
  {l l' : List ArgumentKind}

/-- A double colon. -/
def colons (joint : Bool) : List Token := [.mark ':' true, .mark ':' joint]

/-- A double colon or nothing. -/
inductive ColonsText : List Token → Prop where
  | nil : ColonsText []
  | colons (joint : Bool) : ColonsText (colons joint)

/-- The token is a word that can be a segment of a path. -/
def Token.IsPathWord (t : Token) : Prop := (pathWord? ["try"] t).isSome

instance (t : Token) : Decidable t.IsPathWord := inferInstanceAs (Decidable (_ = _))

theorem Token.IsPathWord.exists_word {t : Token} (h : t.IsPathWord) : ∃ text, t = .word text := by
  cases t with
  | word text => exact ⟨text, rfl⟩
  | _ => cases h

/-! ## Angle brackets -/

/-- Nothing, or tokens between angle brackets, perhaps with a double colon before them. -/
inductive AnglesText : Option (List Token) → List Token → Prop where
  | nil : AnglesText none []
  | angles {before inner : List Token} {opened closed : Bool} (before_text : ColonsText before)
      (inner_closed : Closed true inner) :
      AnglesText (some inner) (before ++ .mark '<' opened :: (inner ++ [.mark '>' closed]))

/-- The tokens begin with an angle bracket, perhaps with a double colon before it. -/
def BeginsWithAngle (tokens : List Token) : Prop :=
  ∃ before opened rest, ColonsText before ∧ tokens = before ++ .mark '<' opened :: rest

theorem not_beginsWithAngle_nil : ¬ BeginsWithAngle [] := by
  rintro ⟨before, opened, rest, -, heq⟩
  simp at heq

theorem BeginsWithAngle.of_colons {joint : Bool} (h : BeginsWithAngle (colons joint ++ tokens)) :
    ∃ opened rest, tokens = .mark '<' opened :: rest := by
  obtain ⟨_, opened, rest, ⟨⟩ | ⟨joint'⟩, heq⟩ := h
  · simp [Declaration.colons] at heq
  · exact ⟨opened, rest, (List.append_inj heq rfl).2⟩

theorem ColonsText.append_angle_inj {before before' : List Token} {opened opened' : Bool}
    (h : ColonsText before) (h' : ColonsText before')
    (heq : before ++ .mark '<' opened :: rest = before' ++ .mark '<' opened' :: rest') :
    rest = rest' := by
  cases h with
  | nil =>
      cases h' with
      | nil => exact (List.cons.inj heq).2
      | colons joint' => simp [Declaration.colons] at heq
  | colons joint =>
      cases h' with
      | nil => simp [Declaration.colons] at heq
      | colons joint' => exact (List.cons.inj (List.append_inj heq rfl).2).2

theorem ColonsText.closed {commas : Bool} (h : ColonsText tokens) : Closed commas tokens := by
  cases h with
  | nil => exact closed_nil
  | colons joint => exact .cons rfl (closed_singleton rfl)

theorem AnglesText.closed {commas : Bool} {inner? : Option (List Token)}
    (h : AnglesText inner? tokens) : Closed commas tokens := by
  cases h with
  | nil => exact closed_nil
  | angles hbefore hinner => exact hbefore.closed.append (closed_angles hinner)

theorem AnglesText.beginsWithAngle {inner : List Token} (h : AnglesText (some inner) tokens)
    (rest : List Token) : BeginsWithAngle (tokens ++ rest) := by
  cases h with
  | angles hbefore _ => exact ⟨_, _, _, hbefore, List.append_assoc _ _ _⟩

/-- Before tokens that do not begin with an angle bracket, it is clear where those in angle brackets
end. -/
theorem AnglesText.unique {inner? inner?' : Option (List Token)} (h : AnglesText inner? tokens)
    (h' : AnglesText inner?' tokens') (heq : tokens ++ rest = tokens' ++ rest')
    (hrest : ¬ BeginsWithAngle rest) (hrest' : ¬ BeginsWithAngle rest') :
    inner? = inner?' ∧ rest = rest' := by
  cases inner? with
  | none =>
      cases inner?' with
      | none =>
          cases h
          cases h'
          exact ⟨rfl, heq⟩
      | some inner' =>
          cases h
          have heq : rest = tokens' ++ rest' := heq
          exact absurd (heq ▸ h'.beginsWithAngle rest') hrest
  | some inner =>
      cases inner?' with
      | none =>
          cases h'
          have heq : tokens ++ rest = rest' := heq
          exact absurd (heq ▸ h.beginsWithAngle rest) hrest'
      | some inner' =>
          cases h with
          | angles hbefore hinner =>
          cases h' with
          | angles hbefore' hinner' =>
          simp only [List.append_assoc, List.cons_append, List.nil_append] at heq
          have hafter := hbefore.append_angle_inj hbefore' heq
          obtain ⟨rfl, -, rfl⟩ := hinner.append_cons_inj hinner' (ends_greater _) (ends_greater _)
            hafter
          exact ⟨rfl, rfl⟩

/-! ## Arguments -/

/-- The argument is a lifetime: a quote and a name. -/
def LifetimeText (tokens : List Token) : Prop :=
  ∃ joint name, tokens = [.mark '\'' joint, .word name]

/-- The argument is a constant: a literal or a truth value, perhaps with a minus sign, or
expressions in braces. -/
inductive ConstantText : List Token → Prop where
  | literal (text : List Char) : ConstantText [.literal text]
  | negative (joint : Bool) (text : List Char) : ConstantText [.mark '-' joint, .literal text]
  | yes : ConstantText [.word "true".toList]
  | no : ConstantText [.word "false".toList]
  | block {content : List Token} (b : Bracket) (h : Balanced content) :
      ConstantText (.opening .curly :: (content ++ [.closing b]))

/-- The tokens begin with an equals sign or with a single colon. -/
inductive BeginsBinding : List Token → Prop where
  | equals (joint : Bool) (rest : List Token) : BeginsBinding (.mark '=' joint :: rest)
  | colon {joint : Bool} {rest : List Token}
      (h : ∀ joint' rest', joint = true → rest ≠ .mark ':' joint' :: rest') :
      BeginsBinding (.mark ':' joint :: rest)

/-- The argument is a name, perhaps with something in angle brackets, and after it an equals sign or
a single colon. -/
def BindingText (tokens : List Token) : Prop :=
  ∃ name inner? angles rest, Token.IsPathWord name ∧ AnglesText inner? angles ∧
    BeginsBinding rest ∧ tokens = name :: (angles ++ rest)

/-- The tokens are an argument of this kind. -/
inductive ArgumentText : ArgumentKind → List Token → Prop where
  | lifetime {tokens : List Token} (h : LifetimeText tokens) : ArgumentText .lifetime tokens
  | constant {tokens : List Token} (h : ConstantText tokens) : ArgumentText .constant tokens
  | binding {tokens : List Token} (h : BindingText tokens) (closed : Closed false tokens) :
      ArgumentText .binding tokens
  /-- What is nothing else is a type. -/
  | type {tokens : List Token} (ne_nil : tokens ≠ []) (closed : Closed false tokens)
      (not_lifetime : ¬ LifetimeText tokens) (not_constant : ¬ ConstantText tokens)
      (not_binding : ¬ BindingText tokens) : ArgumentText .type tokens

theorem LifetimeText.closed (h : LifetimeText tokens) : Closed false tokens := by
  obtain ⟨joint, name, rfl⟩ := h
  exact .cons rfl (closed_singleton rfl)

theorem ConstantText.closed (h : ConstantText tokens) : Closed false tokens := by
  cases h with
  | negative joint text => cases joint <;> rfl
  | block b h => exact closed_group h
  | _ => exact closed_singleton rfl

theorem ArgumentText.closed (h : ArgumentText k tokens) : Closed false tokens := by
  cases h with
  | lifetime h => exact h.closed
  | constant h => exact h.closed
  | binding _ hclosed => exact hclosed
  | type _ hclosed _ _ _ => exact hclosed

theorem LifetimeText.not_constantText (h : LifetimeText tokens) : ¬ ConstantText tokens := by
  obtain ⟨joint, name, rfl⟩ := h
  exact nofun

/-- A binding begins with a word and does not end with it. -/
theorem BindingText.exists_cons (h : BindingText tokens) :
    ∃ text t rest, tokens = .word text :: t :: rest := by
  obtain ⟨name, inner?, angles, rest, hname, -, hrest, rfl⟩ := h
  obtain ⟨text, rfl⟩ := hname.exists_word
  obtain ⟨t, more, hmore⟩ : ∃ t more, angles ++ rest = t :: more := by
    refine List.exists_cons_of_ne_nil (List.append_ne_nil_of_right_ne_nil _ ?_)
    cases hrest <;> exact List.cons_ne_nil _ _
  exact ⟨text, t, more, by rw [hmore]⟩

theorem BindingText.not_lifetimeText (h : BindingText tokens) : ¬ LifetimeText tokens := by
  obtain ⟨text, t, rest, rfl⟩ := h.exists_cons
  rintro ⟨joint, name, heq⟩
  cases heq

theorem BindingText.not_constantText (h : BindingText tokens) : ¬ ConstantText tokens := by
  obtain ⟨text, t, rest, rfl⟩ := h.exists_cons
  exact nofun

theorem ArgumentText.ne_nil (h : ArgumentText k tokens) : tokens ≠ [] := by
  rintro rfl
  cases h with
  | lifetime h => exact nomatch h
  | constant h => cases h
  | binding h _ => exact nomatch h.exists_cons
  | type hne _ _ _ _ => exact hne rfl

/-- Arguments of different kinds do not look the same. -/
theorem ArgumentText.unique (h : ArgumentText k tokens) (h' : ArgumentText k' tokens) :
    k = k' := by
  cases h with
  | lifetime h =>
      cases h' with
      | lifetime => rfl
      | constant h' => exact absurd h' h.not_constantText
      | binding h' _ => exact absurd h h'.not_lifetimeText
      | type _ _ hnot _ _ => exact absurd h hnot
  | constant h =>
      cases h' with
      | lifetime h' => exact absurd h h'.not_constantText
      | constant => rfl
      | binding h' _ => exact absurd h h'.not_constantText
      | type _ _ _ hnot _ => exact absurd h hnot
  | binding h _ =>
      cases h' with
      | lifetime h' => exact absurd h' h.not_lifetimeText
      | constant h' => exact absurd h' h.not_constantText
      | binding => rfl
      | type _ _ _ _ hnot => exact absurd h hnot
  | type _ _ hlifetime hconstant hbinding =>
      cases h' with
      | lifetime h' => exact absurd h' hlifetime
      | constant h' => exact absurd h' hconstant
      | binding h' _ => exact absurd h' hbinding
      | type => rfl

/-- The tokens are arguments of these kinds, with commas between them and perhaps one at the end. -/
inductive ArgumentsText : List ArgumentKind → List Token → Prop where
  | nil : ArgumentsText [] []
  | last {k : ArgumentKind} {tokens : List Token} (h : ArgumentText k tokens) :
      ArgumentsText [k] tokens
  | cons {k : ArgumentKind} {l : List ArgumentKind} {tokens rest : List Token} {joint : Bool}
      (h : ArgumentText k tokens) (hrest : ArgumentsText l rest) :
      ArgumentsText (k :: l) (tokens ++ comma joint :: rest)

theorem ArgumentsText.closed (h : ArgumentsText l tokens) : Closed true tokens := by
  induction h with
  | nil => exact closed_nil
  | last h => exact h.closed.with_commas
  | @cons k l tokens rest joint h _ ih =>
      have hcomma : Closed true [comma joint] := rfl
      exact h.closed.with_commas.append (hcomma.append ih)

/-- An argument has no comma, so that it is not several of them. -/
theorem ArgumentText.ne_append_comma {joint : Bool} (h : ArgumentText k tokens)
    (ha : ArgumentText k' a) : tokens ≠ a ++ comma joint :: rest := by
  rintro rfl
  exact ha.closed.not_closed (ends_comma joint) rest h.closed

theorem ArgumentsText.unique (h : ArgumentsText l tokens) (h' : ArgumentsText l' tokens) :
    l = l' := by
  induction h generalizing l' with
  | nil =>
      generalize htokens : ([] : List Token) = tokens at h'
      cases h' with
      | nil => rfl
      | last h' => exact absurd htokens.symm h'.ne_nil
      | cons h' _ => simp at htokens
  | @last k tokens h =>
      generalize htokens : tokens = tokens' at h'
      cases h' with
      | nil => exact absurd htokens h.ne_nil
      | last h' => rw [h.unique (htokens ▸ h')]
      | cons h' _ => exact absurd htokens (h.ne_append_comma h')
  | @cons k l a rest joint h _ ih =>
      generalize htokens : a ++ comma joint :: rest = tokens' at h'
      cases h' with
      | nil => simp at htokens
      | last h' => exact absurd htokens.symm (h'.ne_append_comma h)
      | cons h' hrest' =>
          obtain ⟨rfl, -, rfl⟩ := h.closed.append_cons_inj h'.closed (ends_comma _) (ends_comma _)
            htokens
          rw [h.unique h', ih hrest']

/-! ## Paths -/

/-- A word of a path, and the kinds of its arguments, if it has some. -/
@[ext] structure Shape where
  word : Token
  kinds? : Option (List ArgumentKind)

/-- The tokens are a segment of this shape. -/
inductive SegmentText : Shape → List Token → Prop where
  | bare {word : Token} (h : word.IsPathWord) : SegmentText ⟨word, none⟩ [word]
  | arguments {word : Token} {kinds : List ArgumentKind} {before inner : List Token}
      {opened closed : Bool} (h : word.IsPathWord) (before_text : ColonsText before)
      (inner_text : ArgumentsText kinds inner) :
      SegmentText ⟨word, some kinds⟩
        (word :: (before ++ .mark '<' opened :: (inner ++ [.mark '>' closed])))

/-- The tokens are a path with segments of these shapes. -/
inductive PathText : List Shape → List Token → Prop where
  | last {x : Shape} {segment : List Token} (h : SegmentText x segment) : PathText [x] segment
  | cons {x : Shape} {l : List Shape} {segment more : List Token} {joint : Bool}
      (h : SegmentText x segment) (hmore : PathText l more) :
      PathText (x :: l) (segment ++ (colons joint ++ more))

/-- The tokens are a type that is a path with segments of these shapes; what stands before a path in
angle brackets does not count. -/
inductive TypePathText : List Shape → List Token → Prop where
  | plain {l : List Shape} {path before : List Token} (before_text : ColonsText before)
      (h : PathText l path) : TypePathText l (before ++ path)
  | qualified {l : List Shape} {path inner : List Token} {opened closed joint : Bool}
      (inner_closed : Closed true inner) (h : PathText l path) :
      TypePathText l (.mark '<' opened :: (inner ++ .mark '>' closed :: (colons joint ++ path)))

variable {x x' : Shape} {S S' : List Shape} {segment segment' : List Token}

/-- A segment is its word and what stands in angle brackets, which tells the kinds of the
arguments. -/
theorem SegmentText.exists_angles (h : SegmentText x segment) :
    x.word.IsPathWord ∧ ∃ inner? angles, segment = x.word :: angles ∧ AnglesText inner? angles ∧
      Option.Rel ArgumentsText x.kinds? inner? := by
  cases h with
  | bare h => exact ⟨h, none, [], rfl, .nil, .none⟩
  | arguments h hbefore hinner =>
      exact ⟨h, some _, _, rfl, .angles hbefore hinner.closed, .some hinner⟩

theorem kinds?_unique {inner? : Option (List Token)} {kinds? kinds?' : Option (List ArgumentKind)}
    (h : Option.Rel ArgumentsText kinds? inner?) (h' : Option.Rel ArgumentsText kinds?' inner?) :
    kinds? = kinds?' := by
  cases h with
  | none =>
      cases h'
      rfl
  | some h =>
      cases h' with
      | some h' => rw [h.unique h']

/-- Before tokens that do not begin with an angle bracket, it is clear where a segment ends. -/
theorem SegmentText.unique (h : SegmentText x segment) (h' : SegmentText x' segment')
    (heq : segment ++ rest = segment' ++ rest') (hrest : ¬ BeginsWithAngle rest)
    (hrest' : ¬ BeginsWithAngle rest') : x = x' ∧ rest = rest' := by
  obtain ⟨-, inner?, angles, rfl, hangles, hkinds⟩ := h.exists_angles
  obtain ⟨-, inner?', angles', rfl, hangles', hkinds'⟩ := h'.exists_angles
  obtain ⟨hword, htail⟩ := List.cons.inj heq
  obtain ⟨rfl, hrests⟩ := hangles.unique hangles' htail hrest hrest'
  exact ⟨Shape.ext hword (kinds?_unique hkinds hkinds'), hrests⟩

theorem SegmentText.closed {commas : Bool} (h : SegmentText x segment) : Closed commas segment := by
  obtain ⟨hword, inner?, angles, rfl, hangles, -⟩ := h.exists_angles
  obtain ⟨text, hword⟩ := hword.exists_word
  rw [hword]
  exact hangles.closed.cons rfl

/-- A path begins with a word. -/
theorem PathText.exists_cons (h : PathText S tokens) :
    ∃ t more, tokens = t :: more ∧ t.IsPathWord := by
  cases h with
  | last h =>
      obtain ⟨hword, inner?, angles, rfl, -⟩ := h.exists_angles
      exact ⟨_, _, rfl, hword⟩
  | cons h _ =>
      obtain ⟨hword, inner?, angles, rfl, -⟩ := h.exists_angles
      exact ⟨_, _, rfl, hword⟩

theorem PathText.closed {commas : Bool} (h : PathText S tokens) : Closed commas tokens := by
  induction h with
  | last h => exact h.closed
  | cons h _ ih => exact h.closed.append ((ColonsText.colons _).closed.append ih)

/-- After the double colon between two segments there is a word. -/
theorem PathText.not_beginsWithAngle (h : PathText S tokens) (joint : Bool) :
    ¬ BeginsWithAngle (colons joint ++ tokens) := by
  intro hangle
  obtain ⟨opened, rest, heq⟩ := BeginsWithAngle.of_colons hangle
  obtain ⟨t, more, rfl, ht⟩ := h.exists_cons
  obtain ⟨text, rfl⟩ := ht.exists_word
  cases heq

/-- An equals sign or a single colon is no angle bracket. -/
theorem BeginsBinding.not_beginsWithAngle (h : BeginsBinding rest) : ¬ BeginsWithAngle rest := by
  rintro ⟨before, opened, more, hbefore, rfl⟩
  generalize htokens : before ++ .mark '<' opened :: more = tokens at h
  cases hbefore with
  | nil =>
      cases htokens
      cases h
  | colons joint =>
      cases htokens
      cases h with
      | colon h => exact h joint _ rfl rfl

theorem SegmentText.bindingText (h : SegmentText x segment) (hrest : BeginsBinding rest) :
    BindingText (segment ++ rest) := by
  obtain ⟨hword, inner?, angles, rfl, hangles, -⟩ := h.exists_angles
  exact ⟨x.word, inner?, angles, rest, hword, hangles, hrest, rfl⟩

/-- After the first segment of a path there is a double colon or nothing. -/
theorem PathText.not_bindingText (h : PathText S tokens) : ¬ BindingText tokens := by
  rintro ⟨name, inner?, angles, rest, -, hangles, hrest, htokens⟩
  cases h with
  | last h =>
      obtain ⟨-, inner?', angles', rfl, hangles', -⟩ := h.exists_angles
      have heq : angles' ++ [] = angles ++ rest := by
        rw [List.append_nil, (List.cons.inj htokens).2]
      obtain ⟨-, rfl⟩ := hangles'.unique hangles heq not_beginsWithAngle_nil
        hrest.not_beginsWithAngle
      exact nomatch hrest
  | @cons _ _ _ more joint h hmore =>
      obtain ⟨-, inner?', angles', rfl, hangles', -⟩ := h.exists_angles
      obtain ⟨-, rfl⟩ := hangles'.unique hangles (List.cons.inj htokens).2
        (hmore.not_beginsWithAngle joint) hrest.not_beginsWithAngle
      cases hrest with
      | colon h => exact h joint more rfl rfl

/-- **Tokens are one path at most.** -/
theorem PathText.unique (h : PathText S tokens) (h' : PathText S' tokens) : S = S' := by
  induction h generalizing S' with
  | @last x segment h =>
      generalize htokens : segment = tokens' at h'
      cases h' with
      | last h' =>
          have heq : segment ++ [] = tokens' ++ [] := by rw [htokens]
          rw [(h.unique h' heq not_beginsWithAngle_nil not_beginsWithAngle_nil).1]
      | cons h' hmore' =>
          rw [← List.append_nil segment] at htokens
          have hnil := h.unique h' htokens not_beginsWithAngle_nil (hmore'.not_beginsWithAngle _)
          exact nomatch hnil.2
  | @cons x l segment more joint h hmore ih =>
      generalize htokens : segment ++ (colons joint ++ more) = tokens' at h'
      cases h' with
      | last h' =>
          rw [← List.append_nil tokens'] at htokens
          have hnil := h.unique h' htokens (hmore.not_beginsWithAngle _) not_beginsWithAngle_nil
          exact nomatch hnil.2
      | cons h' hmore' =>
          obtain ⟨rfl, hrest⟩ := h.unique h' htokens (hmore.not_beginsWithAngle _)
            (hmore'.not_beginsWithAngle _)
          obtain rfl := (List.append_inj hrest rfl).2
          rw [ih hmore']

/-- A type that is a path begins with a word, a colon or an angle bracket. -/
def Token.BeginsPath (t : Token) : Prop :=
  t.IsPathWord ∨ (∃ joint, t = .mark ':' joint) ∨ ∃ opened, t = .mark '<' opened

theorem TypePathText.exists_cons (h : TypePathText S tokens) :
    ∃ t more, tokens = t :: more ∧ t.BeginsPath := by
  cases h with
  | plain hbefore h =>
      cases hbefore with
      | nil =>
          obtain ⟨t, more, rfl, ht⟩ := h.exists_cons
          exact ⟨t, more, rfl, .inl ht⟩
      | colons joint => exact ⟨_, _, rfl, .inr (.inl ⟨true, rfl⟩)⟩
  | qualified _ _ => exact ⟨_, _, rfl, .inr (.inr ⟨_, rfl⟩)⟩

/-- A word or a colon is no angle bracket. -/
theorem ColonsText.append_path_ne {before : List Token} (hbefore : ColonsText before)
    (h : PathText S tokens) (opened : Bool) : before ++ tokens ≠ .mark '<' opened :: rest := by
  intro heq
  cases hbefore with
  | nil =>
      obtain ⟨t, more, rfl, ht⟩ := h.exists_cons
      obtain ⟨text, rfl⟩ := ht.exists_word
      cases heq
  | colons joint => cases heq

/-- Whether a double colon stands before a path can be seen. -/
theorem ColonsText.append_path_inj {before before' : List Token} (hbefore : ColonsText before)
    (hbefore' : ColonsText before') (h : PathText S tokens) (h' : PathText S' tokens')
    (heq : before ++ tokens = before' ++ tokens') : tokens = tokens' := by
  cases hbefore with
  | nil =>
      cases hbefore' with
      | nil => exact heq
      | colons joint' =>
          obtain ⟨t, more, rfl, ht⟩ := h.exists_cons
          obtain ⟨text, rfl⟩ := ht.exists_word
          cases heq
  | colons joint =>
      cases hbefore' with
      | nil =>
          obtain ⟨t, more, rfl, ht⟩ := h'.exists_cons
          obtain ⟨text, rfl⟩ := ht.exists_word
          cases heq
      | colons joint' => exact (List.append_inj heq rfl).2

/-- **A type is spelled as one path at most.** -/
theorem TypePathText.unique (h : TypePathText S tokens) (h' : TypePathText S' tokens) :
    S = S' := by
  cases h with
  | @plain path before hbefore h =>
      generalize htokens : before ++ path = tokens' at h'
      cases h' with
      | plain hbefore' h' =>
          obtain rfl := hbefore.append_path_inj hbefore' h h' htokens
          exact h.unique h'
      | qualified hinner' h' => exact absurd htokens (hbefore.append_path_ne h _)
  | qualified hinner h =>
      generalize htokens : Token.mark '<' _ :: _ = tokens' at h'
      cases h' with
      | plain hbefore' h' => exact absurd htokens.symm (hbefore'.append_path_ne h' _)
      | qualified hinner' h' =>
          obtain ⟨-, -, hrest⟩ := hinner.append_cons_inj hinner' (ends_greater _) (ends_greater _)
            (List.cons.inj htokens).2
          obtain rfl := (List.append_inj hrest rfl).2
          exact h.unique h'

/-! ## Optional types -/

/-- The type is a path that ends in the word `Option` with one argument, which is a type. -/
def SpelledOptional (tokens : List Token) : Prop :=
  ∃ front, TypePathText (front ++ [⟨.word "Option".toList, some [.type]⟩]) tokens

end Declaration
end Determinization
