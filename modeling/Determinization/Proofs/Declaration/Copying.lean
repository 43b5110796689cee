import Determinization.Declaration.Basic
import Determinization.Proofs.Declaration.Forms
import Determinization.Proofs.Text.Listing

/-!
# What is copied

Types, values and attributes are copied into the code without being understood.  `Copies taken copy`
says what a copy is: the same tokens one after the other, except that

* lifetimes come first among the arguments in angle brackets, and the commas between the arguments
  are written anew;
* an index is written in its shortest decimal form, and two of them that are one literal after a
  point, as in `t.0.1`, are written apart;
* a group ends in the bracket that goes with the one it begins with.

Most readings answer with a copy of what they take.  Some begin with an expression that was read
before and extend it, so that the property is one of readings that go on from a text
(`CopiesFrom`).  It is kept by putting readings one after the other, and by induction on the limit
all readings of the standard grammar have it (`copyingUpTo`).
-/

namespace Determinization
namespace Declaration

variable {α β : Type} {shown : α → List Token} {shown' : β → List Token} {r r' : Reading α}
  {f : α → Reading β} {before tokens taken copy rest : List Token} {limit : Nat}

/-! ## Copies -/

/-- The items one after the other, with commas between them and perhaps one at the end. -/
inductive Listed : List (List Token) → List Token → Prop where
  | nil : Listed [] []
  | last (item : List Token) : Listed [item] item
  | cons {tokens : List Token} {l : List (List Token)} (h : Listed l tokens)
      (item : List Token) : Listed (item :: l) (item ++ comma false :: tokens)

mutual

/-- The second list is a copy of the first one. -/
inductive Copies : List Token → List Token → Prop where
  | nil : Copies [] []
  | token (t : Token) : Copies [t] [t]
  | append {first second copy copy' : List Token} (h : Copies first copy)
      (h' : Copies second copy') : Copies (first ++ second) (copy ++ copy')
  /-- The closing bracket goes with the opening one. -/
  | group {content copy : List Token} {k b : Bracket} (h : Copies content copy) :
      Copies (.opening k :: (content ++ [.closing b])) (.opening k :: (copy ++ [.closing k]))
  /-- Lifetimes come first. -/
  | arguments {content copy : List Token} {l : List (ArgumentKind × List Token)}
      {opened closed : Bool} (h : CopiesEach l content)
      (hcopy : Listed
        ((l.filter (·.1 = .lifetime) ++ l.filter (·.1 ≠ .lifetime)).map Prod.snd) copy) :
      Copies (.mark '<' opened :: (content ++ [.mark '>' closed]))
        (.mark '<' opened :: (copy ++ [.mark '>' closed]))
  /-- An index is written in its shortest form. -/
  | index {i i' : List Char} (h : indexText? i = some i') : Copies [.literal i] [.literal i']
  /-- A literal that ends in a point is an index and the point of another member. -/
  | member {i i' : List Char} {joint : Bool} (h : indexText? i = some i') :
      Copies [.mark '.' joint, .literal (i ++ ['.'])]
        [.mark '.' joint, .literal i', .mark '.' false]
  /-- Two indices are written apart. -/
  | members {i i' j j' : List Char} {joint : Bool} (h : indexText? i = some i')
      (h' : indexText? j = some j') :
      Copies [.mark '.' joint, .literal (i ++ '.' :: j)]
        [.mark '.' joint, .literal i', .mark '.' false, .literal j']

/-- The tokens are arguments of these kinds, and these are copies of them. -/
inductive CopiesEach : List (ArgumentKind × List Token) → List Token → Prop where
  | nil : CopiesEach [] []
  | last {k : ArgumentKind} {taken copy : List Token} (htext : ArgumentText k taken)
      (h : Copies taken copy) : CopiesEach [(k, copy)] taken
  | cons {k : ArgumentKind} {taken copy rest : List Token}
      {l : List (ArgumentKind × List Token)} {joint : Bool} (htext : ArgumentText k taken)
      (h : Copies taken copy) (hrest : CopiesEach l rest) :
      CopiesEach ((k, copy) :: l) (taken ++ comma joint :: rest)

end

theorem Copies.refl (tokens : List Token) : Copies tokens tokens := by
  induction tokens with
  | nil => exact .nil
  | cons t tokens ih => exact .append (.token t) ih

/-- Arguments are listed with commas between them. -/
theorem listed_written (l : List Argument) :
    Listed (l.map Argument.tokens) (Argument.written l) := by
  induction l with
  | nil => exact .nil
  | cons a l ih =>
      rw [Argument.written]
      cases l with
      | nil =>
          cases a.followed with
          | false => simpa [Argument.written] using Listed.last a.tokens
          | true => simpa [Argument.written, comma] using Listed.nil.cons a.tokens
      | cons a' l => simpa [comma] using ih.cons a.tokens

/-- An argument and its kind. -/
def Argument.kinded (a : Argument) : ArgumentKind × List Token := (a.kind, a.tokens)

/-- Lifetimes are listed first. -/
theorem listed_listed (l : List Argument) :
    Listed (((l.map Argument.kinded).filter (·.1 = .lifetime) ++
      (l.map Argument.kinded).filter (·.1 ≠ .lifetime)).map Prod.snd) (Argument.listed l) := by
  have hlisted := listed_written (l.filter (·.kind = .lifetime) ++ l.filter (·.kind ≠ .lifetime))
  rw [List.map_append] at hlisted
  rw [List.filter_map, List.filter_map, List.map_append, List.map_map, List.map_map]
  exact hlisted

/-! ## Readings that copy -/

/-- What the reading answers with shows the text before and then a copy of what is taken. -/
structure CopiesFrom (shown : α → List Token) (before : List Token) (r : Reading α) : Prop where
  exists_copy {tokens rest : List Token} {a : α} (h : r.run tokens = some (a, rest)) :
    ∃ taken copy, tokens = taken ++ rest ∧ shown a = before ++ copy ∧ Copies taken copy

namespace CopiesFrom

theorem pure {a : α} (h : shown a = before) :
    CopiesFrom shown before (pure a : Reading α) where
  exists_copy hrun := by
    cases hrun
    exact ⟨[], [], rfl, by rw [h, List.append_nil], .nil⟩

theorem failure : CopiesFrom shown before (failure : Reading α) where
  exists_copy hrun := by cases hrun

/-- The second reading goes on where the first one ends. -/
theorem bind (hr : CopiesFrom shown before r) (hf : ∀ a, CopiesFrom shown' (shown a) (f a)) :
    CopiesFrom shown' before (r >>= f) where
  exists_copy hrun := by
    obtain ⟨a, middle, hfirst, hsecond⟩ := exists_run_of_bind hrun
    obtain ⟨first, copy, rfl, hshown, hcopy⟩ := hr.exists_copy hfirst
    obtain ⟨second, copy', rfl, hshown', hcopy'⟩ := (hf a).exists_copy hsecond
    refine ⟨first ++ second, copy ++ copy', (List.append_assoc _ _ _).symm, ?_,
      hcopy.append hcopy'⟩
    rw [hshown', hshown, List.append_assoc]

theorem failure_bind : CopiesFrom shown' before ((Alternative.failure : Reading α) >>= f) where
  exists_copy hrun := by cases hrun

theorem pure_bind {a : α} (h : CopiesFrom shown' before (f a)) :
    CopiesFrom shown' before ((Pure.pure a : Reading α) >>= f) where
  exists_copy hrun := h.exists_copy hrun

/-- More can stand before all that is shown. -/
theorem after (hr : CopiesFrom shown before r) (front : List Token) :
    CopiesFrom (fun a => front ++ shown a) (front ++ before) r where
  exists_copy hrun := by
    obtain ⟨taken, copy, htokens, hshown, hcopy⟩ := hr.exists_copy hrun
    exact ⟨taken, copy, htokens, by rw [hshown, List.append_assoc], hcopy⟩

theorem next (hr : CopiesFrom shown [] r) (hf : ∀ a, CopiesFrom shown' (before ++ shown a) (f a)) :
    CopiesFrom shown' before (r >>= f) := by
  have hafter := hr.after before
  rw [List.append_nil] at hafter
  exact hafter.bind hf

/-- A look at what comes takes nothing. -/
theorem look [Looks r] (hf : ∀ a, CopiesFrom shown' before (f a)) :
    CopiesFrom shown' before (r >>= f) where
  exists_copy hrun := by
    obtain ⟨a, hsecond⟩ := Looks.exists_run hrun
    exact (hf a).exists_copy hsecond

theorem of_eq {before' : List Token} (hr : CopiesFrom shown before r) (h : before = before') :
    CopiesFrom shown before' r := h ▸ hr

theorem ite {p : Prop} [Decidable p] (hr : CopiesFrom shown before r)
    (hr' : CopiesFrom shown before r') : CopiesFrom shown before (if p then r else r') := by
  split
  · exact hr
  · exact hr'

theorem orElse (hr : CopiesFrom shown before r) (hr' : CopiesFrom shown before r') :
    CopiesFrom shown before (r <|> r') where
  exists_copy {tokens rest a} hrun := by
    rw [run_orElse] at hrun
    cases hfirst : r.run tokens with
    | none =>
        rw [hfirst] at hrun
        exact hr'.exists_copy hrun
    | some p =>
        rw [hfirst] at hrun
        cases hrun
        exact hr.exists_copy hfirst

/-- A regular reading copies if it does so with what it takes. -/
theorem of_takes [Regular r] (h : ∀ {taken rest : List Token} {a : α}, Takes r taken a rest →
    ∃ copy, shown a = before ++ copy ∧ Copies taken copy) : CopiesFrom shown before r where
  exists_copy hrun := by
    obtain ⟨taken, htokens, htakes⟩ := exists_takes hrun
    obtain ⟨copy, hshown, hcopy⟩ := h htakes
    exact ⟨taken, copy, htokens, hshown, hcopy⟩

/-- What is shown after nothing is a copy of what is taken. -/
theorem copies (hr : CopiesFrom shown [] r) {a : α} (h : Takes r taken a rest) :
    Copies taken (shown a) := by
  obtain ⟨first, copy, heq, hshown, hcopy⟩ := hr.exists_copy h
  obtain rfl := List.append_cancel_right heq
  exact hshown ▸ hcopy

end CopiesFrom

/-! ## Words, signs and groups -/

instance : Looks (get : Reading (List Token)) := looks_of_run fun _ => rfl

instance : Looks isAtEnd := looks_of_run fun _ => rfl

instance : Looks seeContinuation := looks_of_run run_seeContinuation

instance : Looks seesRangeEnd := looks_of_run fun _ => rfl

theorem copies_readToken (p : Token → Bool) : CopiesFrom id [] (readToken p) where
  exists_copy {tokens rest a} hrun := by
    cases tokens with
    | nil => cases hrun
    | cons t tokens =>
        rw [readToken_eq] at hrun
        obtain ⟨b, hb, heq⟩ := Option.map_eq_some_iff.1 hrun
        cases heq
        dsimp only at hb
        split at hb
        · cases hb
          exact ⟨[t], [t], rfl, rfl, .token t⟩
        · cases hb

theorem copies_readWord (text : String) : CopiesFrom id [] (readWord text) := copies_readToken _

theorem copies_readWord? (text : String) : CopiesFrom id [] (readWord? text) := by
  rw [readWord?]
  exact .look fun _ => .ite (copies_readWord text) (.pure rfl)

theorem copies_readName : CopiesFrom (fun n => [n.token]) [] readName :=
  .of_takes fun h => by
    obtain ⟨rfl, -⟩ := takes_readName_iff.1 h
    exact ⟨_, rfl, .refl _⟩

theorem copies_readPathWord (further : List String) :
    CopiesFrom (fun t => [t]) [] (readPathWord further) :=
  .of_takes fun {taken rest a} h => by
    rw [readPathWord_eq, takes_takeFirst_iff] at h
    obtain ⟨t, rfl, ht⟩ := h
    have heq : t = a := by
      cases t with
      | word text =>
          rw [pathWord?] at ht
          split at ht
          · exact Option.some.inj ht
          · cases ht
      | _ => cases ht
    exact ⟨[t], by rw [heq]; rfl, .token t⟩

theorem copies_readSign (sign : String) : CopiesFrom id [] (readSign sign) where
  exists_copy {tokens rest a} hrun := by
    rw [run_readSign] at hrun
    split at hrun
    · cases hrun
      exact ⟨_, _, (List.take_append_drop _ _).symm, rfl, .refl _⟩
    · cases hrun

theorem copies_readSign? (sign : String) : CopiesFrom id [] (readSign? sign) := by
  rw [readSign?]
  exact .look fun _ => .ite (copies_readSign sign) (.pure rfl)

theorem copies_readLifetime : CopiesFrom id [] readLifetime := by
  rw [readLifetime]
  exact .bind (copies_readSign _) fun _ => .next (copies_readToken _) fun _ => .pure rfl

theorem copies_readLifetime? : CopiesFrom id [] readLifetime? := by
  rw [readLifetime?]
  exact .look fun _ => .ite copies_readLifetime (.pure rfl)

theorem copies_readConstant : CopiesFrom id [] readConstant := by
  rw [readConstant]
  exact .bind (copies_readSign? _) fun _ => .next (copies_readToken _) fun _ => .pure rfl

theorem copies_readRest : CopiesFrom id [] readRest where
  exists_copy hrun := by
    cases hrun
    exact ⟨_, _, (List.append_nil _).symm, rfl, .refl _⟩

/-- A group is a copy if what stands in it is one. -/
theorem copies_readGroup {r : Reading (List Token)} (hr : CopiesFrom id [] r) (k : Bracket) :
    CopiesFrom id [] (readGroup k r) :=
  .of_takes fun {taken rest a} h => by
    rw [readGroup] at h
    obtain ⟨_, _, content', rfl, hinside, hpure⟩ := takes_bind_iff.1 h
    obtain ⟨rfl, rfl⟩ := takes_pure_iff.1 hpure
    obtain ⟨content, b, rfl, -, hcontent⟩ := takes_inside_iff.1 hinside
    rw [List.append_nil]
    exact ⟨_, rfl, .group (hr.copies hcontent)⟩

theorem copies_readAnyGroup : CopiesFrom id [] readAnyGroup :=
  .orElse (copies_readGroup copies_readRest .round)
    (.orElse (copies_readGroup copies_readRest .square) (copies_readGroup copies_readRest .curly))

theorem copies_readItems {r : Reading (List Token)} (hr : CopiesFrom id [] r) (limit : Nat) :
    CopiesFrom id [] (readItems r limit) := by
  induction limit with
  | zero => exact .failure
  | succ limit ih =>
      rw [readItems]
      refine .look fun _ => .ite (.pure rfl) (.bind hr fun _ => .look fun _ => .ite (.pure rfl) ?_)
      exact .next (copies_readSign _) fun _ => .next ih fun _ => .pure rfl

theorem copies_readListed {r : Reading (List Token)} (hr : CopiesFrom id [] r) :
    CopiesFrom id [] (readListed r) := by
  rw [readListed]
  exact .look fun _ => copies_readItems hr _

theorem copies_readPlainSegments (limit : Nat) : CopiesFrom id [] (readPlainSegments limit) := by
  induction limit with
  | zero => exact .failure
  | succ limit ih =>
      rw [readPlainSegments]
      refine .bind (copies_readPathWord []) fun _ => .look fun _ => .ite ?_ (.pure rfl)
      exact .next (copies_readSign _) fun _ => .next ih fun _ => .pure rfl

theorem copies_readPlainPath : CopiesFrom id [] readPlainPath := by
  rw [readPlainPath]
  exact .bind (copies_readSign? _) fun _ => .look fun _ =>
    .next (copies_readPlainSegments _) fun _ => .pure rfl

/-! ## Indices -/

/-- What is read of indices: nothing, an index, an index and a point, or two indices. -/
inductive IndicesText : List Token → List Token × Bool → Prop where
  | none : IndicesText [] ([], true)
  | one {i i' : List Char} (h : indexText? i = some i') :
      IndicesText [.literal i] ([.literal i'], false)
  | pointed {i i' : List Char} (h : indexText? i = some i') :
      IndicesText [.literal (i ++ ['.'])] ([.literal i', .mark '.' false], true)
  | two {i i' j j' : List Char} (h : indexText? i = some i') (h' : indexText? j = some j') :
      IndicesText [.literal (i ++ '.' :: j)]
        ([.literal i', .mark '.' false, .literal j'], false)

theorem ne_nil_of_indexText? {text i : List Char} (h : indexText? text = some i) : i ≠ [] := by
  unfold indexText? at h
  dsimp only at h
  split at h
  · cases h
    exact Nat.toDigits_ne_nil
  · cases h

/-- A literal is an index, an index with a point behind it, or two indices. -/
theorem exists_of_indexTexts? {text : List Char} {l : List (List Char)}
    (h : indexTexts? text = some l) :
    (∃ i', indexText? text = some i' ∧ l = [i']) ∨
      (∃ i i', text = i ++ ['.'] ∧ indexText? i = some i' ∧ l = [i', []]) ∨
      ∃ i i' j j', text = i ++ '.' :: j ∧ indexText? i = some i' ∧ indexText? j = some j' ∧
        l = [i', j'] := by
  have htext := Text.join_pieces '.' text
  unfold indexTexts? at h
  rcases hpieces : Text.pieces '.' text with _ | ⟨i, _ | ⟨j, _ | ⟨k, more⟩⟩⟩
  · rw [hpieces] at h
    cases h
  · rw [hpieces] at h htext
    obtain ⟨i', hi, rfl⟩ := Option.map_eq_some_iff.1 h
    obtain rfl : i = text := by simpa [Text.join] using htext
    exact .inl ⟨i', hi, rfl⟩
  · have hsplit : text = i ++ '.' :: j := by
      rw [← htext, hpieces, Text.join_cons]
      simp
    rw [hpieces] at h
    cases j with
    | nil =>
        obtain ⟨i', hi, rfl⟩ := Option.map_eq_some_iff.1 h
        exact .inr (.inl ⟨i, i', hsplit, hi, rfl⟩)
    | cons c j =>
        obtain ⟨i', hi, hboth⟩ := Option.bind_eq_some_iff.1 h
        obtain ⟨j', hj, rfl⟩ := Option.map_eq_some_iff.1 hboth
        exact .inr (.inr ⟨i, i', _, j', hsplit, hi, hj, rfl⟩)
  · rw [hpieces] at h
    cases j <;> cases h

/-- The indices that a literal is. -/
theorem indicesText_of_indices? {text : List Char} {p : List Token × Bool}
    (h : indices? text = some p) : IndicesText [.literal text] p := by
  unfold indices? at h
  cases hl : indexTexts? text with
  | none =>
      rw [hl] at h
      cases h
  | some l =>
      rw [hl] at h
      obtain ⟨i', hi, rfl⟩ | ⟨i, i', rfl, hi, rfl⟩ | ⟨i, i', j, j', rfl, hi, hj, rfl⟩ :=
        exists_of_indexTexts? hl
      · cases h
        exact .one hi
      · cases h
        exact .pointed hi
      · cases j' with
        | nil => exact absurd rfl (ne_nil_of_indexText? hj)
        | cons c j' =>
            cases h
            exact .two hi hj

theorem exists_indicesText {p : List Token × Bool} (h : readIndices.run tokens = some (p, rest)) :
    ∃ taken, tokens = taken ++ rest ∧ IndicesText taken p := by
  cases tokens with
  | nil =>
      cases h
      exact ⟨[], rfl, .none⟩
  | cons t tokens =>
      cases t with
      | literal text =>
          rw [run_readIndices_literal] at h
          obtain ⟨q, hq, heq⟩ := Option.map_eq_some_iff.1 h
          cases heq
          exact ⟨[.literal text], rfl, indicesText_of_indices? hq⟩
      | _ =>
          rw [run_readIndices rfl] at h
          cases h
          exact ⟨[], rfl, .none⟩

/-- After a point, indices are copied. -/
theorem IndicesText.copies {p : List Token × Bool} (h : IndicesText taken p) (joint : Bool) :
    Copies (.mark '.' joint :: taken) (.mark '.' joint :: p.1) := by
  cases h with
  | none => exact .token _
  | one h => exact .append (.token _) (.index h)
  | pointed h => exact .member h
  | two h h' => exact .members h h'

theorem copies_point {f : List Token → List Token × Bool → Reading β}
    (hf : ∀ point p, CopiesFrom shown' (before ++ point ++ p.1) (f point p)) :
    CopiesFrom shown' before (readSign "." >>= fun point => readIndices >>= f point) where
  exists_copy {tokens rest b} hrun := by
    obtain ⟨point, middle, hpoint, hafter⟩ := exists_run_of_bind hrun
    obtain ⟨_, rfl, htakes⟩ := exists_takes hpoint
    obtain ⟨joint, rfl, rfl⟩ := (takes_readSign_iff (c := '.') rfl).1 htakes
    obtain ⟨p, left, hindices, hlast⟩ := exists_run_of_bind hafter
    obtain ⟨taken, rfl, htext⟩ := exists_indicesText hindices
    obtain ⟨last, copy, rfl, hshown, hcopy⟩ := (hf _ p).exists_copy hlast
    refine ⟨.mark '.' joint :: (taken ++ last), .mark '.' joint :: (p.1 ++ copy), by simp, ?_,
      (htext.copies joint).append hcopy⟩
    rw [hshown]
    simp

theorem copies_readIndex : CopiesFrom id [] readIndex where
  exists_copy {tokens rest index} hrun := by
    rw [readIndex] at hrun
    obtain ⟨p, left, hindices, hlast⟩ := exists_run_of_bind hrun
    obtain ⟨taken, rfl, htext⟩ := exists_indicesText hindices
    -- anything but a single index is refused
    cases htext with
    | none => cases hlast
    | one h =>
        cases hlast
        exact ⟨_, _, rfl, rfl, .index h⟩
    | pointed h => cases hlast
    | two h h' => cases hlast

/-! ## Arguments -/

/-- Every argument is copied. -/
def CopiesArguments (r : Reading (List Argument)) : Prop :=
  ∀ tokens rest l, r.run tokens = some (l, rest) →
    ∃ taken, tokens = taken ++ rest ∧ CopiesEach (l.map Argument.kinded) taken

/-- Arguments in angle brackets are copied with the lifetimes first. -/
theorem CopiesArguments.angles {r : Reading (List Argument)} (hr : CopiesArguments r)
    {f : List Token → List Argument → List Token → Reading β}
    (hf : ∀ opening l closing, CopiesFrom shown'
      (before ++ opening ++ Argument.listed l ++ closing) (f opening l closing)) :
    CopiesFrom shown' before (readSign "<" >>= fun opening => r >>= fun l =>
      readSign ">" >>= fun closing => f opening l closing) where
  exists_copy {tokens rest b} hrun := by
    obtain ⟨_, afterOpening, hopening, hlisted⟩ := exists_run_of_bind hrun
    obtain ⟨_, rfl, hfirst⟩ := exists_takes hopening
    obtain ⟨opened, rfl, rfl⟩ := (takes_readSign_iff (c := '<') rfl).1 hfirst
    obtain ⟨l, afterArguments, harguments, hclosed⟩ := exists_run_of_bind hlisted
    obtain ⟨content, rfl, heach⟩ := hr _ _ _ harguments
    obtain ⟨_, afterClosing, hclosing, hlast⟩ := exists_run_of_bind hclosed
    obtain ⟨_, rfl, hsecond⟩ := exists_takes hclosing
    obtain ⟨closed, rfl, rfl⟩ := (takes_readSign_iff (c := '>') rfl).1 hsecond
    obtain ⟨last, copy, rfl, hshown, hcopy⟩ := (hf _ l _).exists_copy hlast
    have hangles : Copies (.mark '<' opened :: (content ++ [.mark '>' closed]))
        (.mark '<' opened :: (Argument.listed l ++ [.mark '>' closed])) :=
      .arguments heach (listed_listed l)
    refine ⟨_, _, ?_, ?_, hangles.append hcopy⟩
    · simp
    · rw [hshown]
      simp

/-! ## All readings at once -/

/-- The readings with this limit copy what they take. -/
structure CopyingUpTo (limit : Nat) : Prop where
  argument : CopiesFrom Phrase.tokens [] (readArgument limit)
  arguments : CopiesArguments (readArguments limit)
  segment (inType : Bool) (further : List String) :
    CopiesFrom Segment.tokens [] (readSegment limit inType further)
  segments (inType : Bool) :
    CopiesFrom (List.flatMap Segment.tokens) [] (readSegments limit inType)
  path (inType : Bool) : CopiesFrom Phrase.tokens [] (readPath limit inType)
  type : CopiesFrom Phrase.tokens [] (readType limit)
  attributes : CopiesFrom id [] (readAttributes limit)
  expression : CopiesFrom Phrase.tokens [] (readExpression limit)
  continued (lowest : Level) (left : Phrase ExpressionForm) :
    CopiesFrom Phrase.tokens left.tokens (readContinued limit lowest left)
  operand (level : Level) : CopiesFrom Phrase.tokens [] (readOperand limit level)
  tighter (level : Level) (operand : Phrase ExpressionForm) :
    CopiesFrom Phrase.tokens operand.tokens (readTighter limit level operand)
  range : CopiesFrom id [] (readRange limit)
  prefixed : CopiesFrom Phrase.tokens [] (readPrefixed limit)
  suffixes (e : List Token) : CopiesFrom id e (readSuffixes limit e)
  atom : CopiesFrom id [] (readAtom limit)
  members : CopiesFrom id [] (readMembers limit)

theorem copyingUpTo_zero : CopyingUpTo 0 := by
  have hfailure : CopiesArguments failure := fun _ _ _ hrun => by cases hrun
  constructor <;> intros <;> first | exact .failure | exact hfailure

section Step

variable (ih : CopyingUpTo limit)

include ih

theorem copies_readArgument : CopiesFrom Phrase.tokens [] (readArgument (limit + 1)) := by
  rw [readArgument]
  refine .look fun _ => .ite (.bind copies_readLifetime fun _ => .pure rfl) ?_
  refine .look fun _ => .ite (.bind copies_readConstant fun _ => .pure rfl) ?_
  refine .bind ih.type fun _ => .look fun _ => .ite ?_ (.pure rfl)
  refine .next (copies_readSign _) fun _ => .look fun _ => .ite ?_ ?_
  · exact .next copies_readConstant fun _ => .pure rfl
  · exact .next ih.type fun _ => .pure rfl

theorem copies_readSegments (inType : Bool) :
    CopiesFrom (List.flatMap Segment.tokens) [] (readSegments (limit + 1) inType) := by
  rw [readSegments]
  refine .look fun _ => .look fun _ => .ite ?_ (.pure rfl)
  refine .bind (copies_readSign _) fun _ => .next (ih.segment _ _) fun _ => ?_
  exact .next (ih.segments _) fun _ => .pure rfl

theorem copies_readPath (inType : Bool) :
    CopiesFrom Phrase.tokens [] (readPath (limit + 1) inType) := by
  rw [readPath]
  refine .bind (copies_readSign? _) fun _ => .look fun _ => ?_
  refine .next (ih.segment _ _) fun _ => .next (ih.segments _) fun _ => .pure ?_
  simp [PathForm.tokens]

theorem copies_readType : CopiesFrom Phrase.tokens [] (readType (limit + 1)) := by
  rw [readType]
  refine .look fun _ => .ite ?_ (.look fun _ => .ite ?_ (.look fun _ => .ite ?_ ?_))
  · have hitem : CopiesFrom id [] (do return (← readType limit).tokens) :=
      .bind ih.type fun _ => .pure rfl
    exact .bind (copies_readGroup (copies_readListed hitem) .round) fun _ => .pure rfl
  · refine .bind (copies_readGroup ?_ .square) fun _ => .pure rfl
    refine .bind ih.type fun _ => .look fun _ => .ite ?_ (.pure rfl)
    exact .next (copies_readSign _) fun _ => .next ih.expression fun _ => .pure rfl
  · refine .bind (copies_readSign _) fun _ => .next copies_readLifetime? fun _ => ?_
    exact .next (copies_readWord? _) fun _ => .next ih.type fun _ => .pure rfl
  refine .look fun _ => .ite ?_ (.look fun _ => .ite ?_ (.look fun _ => .ite ?_ ?_))
  · have hchange : CopiesFrom id [] (readWord "mut" <|> readWord "const") :=
      .orElse (copies_readWord _) (copies_readWord _)
    exact .bind (copies_readSign _) fun _ => .next hchange fun _ => .next ih.type fun _ =>
      .pure rfl
  · exact .bind (copies_readSign _) fun _ => .pure rfl
  · exact .bind (copies_readWord _) fun _ => .pure rfl
  · exact .bind (ih.path true) fun _ => .pure rfl

theorem copies_readArguments : CopiesArguments (readArguments (limit + 1)) := by
  intro tokens rest l hrun
  rw [readArguments] at hrun
  obtain ⟨isEmpty, hsome⟩ := Looks.exists_run hrun
  split at hsome
  · cases hsome
    exact ⟨[], rfl, .nil⟩
  obtain ⟨a, afterFirst, hfirst, hafter⟩ := exists_run_of_bind hsome
  obtain ⟨taken, copy, rfl, hshown, hcopy⟩ := ih.argument.exists_copy hfirst
  have htext : ArgumentText a.form taken := (spelledUpTo limit).argument hfirst
  have hcopied : Copies taken a.tokens := hshown ▸ hcopy
  obtain ⟨isLast, hmore⟩ := Looks.exists_run hafter
  split at hmore
  · cases hmore
    exact ⟨taken, rfl, .last htext hcopied⟩
  obtain ⟨_, afterComma, hcomma, hothers⟩ := exists_run_of_bind hmore
  obtain ⟨first, rfl⟩ := suffix_of_readSign hcomma
  obtain ⟨joint, rfl, -⟩ := takes_readComma_iff.1 hcomma
  obtain ⟨more, left, hlisted, hpure⟩ := exists_run_of_bind hothers
  cases hpure
  obtain ⟨others, rfl, heach⟩ := ih.arguments _ _ _ hlisted
  exact ⟨taken ++ comma joint :: others, by simp, .cons htext hcopied heach⟩

theorem copies_readSegment (inType : Bool) (further : List String) :
    CopiesFrom Segment.tokens [] (readSegment (limit + 1) inType further) := by
  rw [readSegment]
  refine .bind (copies_readPathWord _) fun _ => .look fun _ => .ite ?_ (.pure rfl)
  refine .next (copies_readSign? _) fun _ => ih.arguments.angles fun _ _ _ => .pure ?_
  simp

theorem copies_readAttributes : CopiesFrom id [] (readAttributes (limit + 1)) := by
  rw [readAttributes]
  refine .look fun _ => .ite ?_ (.pure rfl)
  refine .bind (copies_readSign _) fun _ => .next (copies_readGroup ?_ _) fun _ => ?_
  · refine .look fun _ => .ite (.bind (copies_readWord _) fun path => ?_)
      (.bind copies_readPlainPath fun path => ?_)
    all_goals
      refine .look fun _ => .ite (.pure rfl) (.look fun _ => .ite ?_ ?_)
      · exact .next copies_readAnyGroup fun _ => .pure rfl
      refine .next (copies_readSign _) fun _ => .look fun _ => .ite .failure_bind ?_
      exact .next ih.expression fun _ => .pure rfl
  · exact .next ih.attributes fun _ => .pure rfl

theorem copies_readExpression : CopiesFrom Phrase.tokens [] (readExpression (limit + 1)) := by
  rw [readExpression]
  exact .bind ih.prefixed fun operand => ih.continued 0 operand

theorem copies_readContinued (lowest : Level) (left : Phrase ExpressionForm) :
    CopiesFrom Phrase.tokens left.tokens (readContinued (limit + 1) lowest left) := by
  rw [readContinued]
  refine .look fun next => .ite (.pure rfl) ?_
  cases next with
  | operator sign level =>
      exact .ite .failure_bind (.next (copies_readSign _) fun _ => .next (ih.operand _) fun _ =>
        ih.continued _ ⟨_, _⟩)
  | assignment =>
      exact .next (copies_readSign _) fun _ => .next (ih.operand _) fun _ =>
        ih.continued _ ⟨_, _⟩
  | range => exact .next ih.range fun _ => ih.continued _ ⟨_, _⟩
  | cast =>
      exact .next (copies_readWord _) fun _ => .next ih.type fun _ => ih.continued _ ⟨_, _⟩
  | nothing => exact .pure rfl

theorem copies_readOperand (level : Level) :
    CopiesFrom Phrase.tokens [] (readOperand (limit + 1) level) := by
  rw [readOperand]
  exact .bind ih.prefixed fun operand => ih.tighter level operand

theorem copies_readTighter (level : Level) (operand : Phrase ExpressionForm) :
    CopiesFrom Phrase.tokens operand.tokens (readTighter (limit + 1) level operand) := by
  rw [readTighter]
  refine .look fun next => .ite ?_ (.pure rfl)
  exact .bind (ih.continued _ _) fun extended => .ite (.pure rfl) (ih.tighter _ _)

theorem copies_readRange : CopiesFrom id [] (readRange (limit + 1)) := by
  rw [readRange]
  refine .look fun _ => .ite ?_ (.look fun _ => .ite .failure ?_)
  · exact .bind (copies_readSign _) fun _ => .next (ih.operand _) fun _ => .pure rfl
  refine .bind (copies_readSign _) fun _ => .look fun _ => .ite (.pure rfl) ?_
  exact .next (ih.operand _) fun _ => .pure rfl

theorem copies_readPrefixed : CopiesFrom Phrase.tokens [] (readPrefixed (limit + 1)) := by
  rw [readPrefixed]
  have hsign : CopiesFrom id [] (readSign "*" <|> readSign "!" <|> readSign "-") :=
    .orElse (copies_readSign _) (.orElse (copies_readSign _) (copies_readSign _))
  refine .bind ih.attributes fun _ => .look fun _ => .ite ?_ ?_
  · exact .next (copies_readSign _) fun _ => .next (copies_readWord? _) fun _ =>
      .next ih.prefixed fun _ => .pure rfl
  refine .look fun _ => .look fun _ => .look fun _ => .ite ?_ (.look fun _ => .ite ?_ ?_)
  · exact .next hsign fun _ => .next ih.prefixed fun _ => .pure rfl
  · exact .next ih.range fun _ => .pure rfl
  · exact .next ih.atom fun _ => .bind ((ih.suffixes _).after _) fun _ => .pure rfl

theorem copies_readSuffixes (e : List Token) : CopiesFrom id e (readSuffixes (limit + 1) e) := by
  have hexpression : CopiesFrom id [] (do return (← readExpression limit).tokens) :=
    .bind ih.expression fun _ => .pure rfl
  have hitems := copies_readListed hexpression
  rw [readSuffixes]
  refine .look fun _ => .ite ?_ (.look fun _ => .ite ?_ (.look fun _ => .ite ?_ ?_))
  · exact .next (copies_readGroup hitems _) fun _ => ih.suffixes _
  · exact .next (copies_readGroup hexpression _) fun _ => ih.suffixes _
  · exact .next (copies_readSign _) fun _ => ih.suffixes _
  refine .look fun _ => .look fun _ => .ite ?_ (.pure rfl)
  refine copies_point fun point p => .ite (ih.suffixes _) (.look fun _ => .ite ?_ ?_)
  · exact .next (copies_readWord _) fun _ => ih.suffixes _
  refine .look fun _ => .ite (.next copies_readIndex fun _ => ih.suffixes _) ?_
  refine .next copies_readName fun _ => .look fun _ => .ite ?_ (ih.suffixes _)
  refine .next (copies_readSign _) fun _ => ih.arguments.angles fun _ _ _ => ?_
  exact .next (copies_readGroup hitems _) fun _ => ih.suffixes _

theorem copies_readAtom : CopiesFrom id [] (readAtom (limit + 1)) := by
  have hexpression : CopiesFrom id [] (do return (← readExpression limit).tokens) :=
    .bind ih.expression fun _ => .pure rfl
  have hitems := copies_readListed hexpression
  rw [readAtom]
  refine .look fun _ => .ite copies_readConstant ?_
  refine .look fun _ => .ite (copies_readGroup hitems _) ?_
  refine .look fun _ => .ite (copies_readGroup ?_ _) ?_
  · refine .look fun _ => .ite (.pure rfl) (.bind ih.expression fun _ => ?_)
    refine .look fun _ => .ite (.pure rfl) (.look fun _ => .ite ?_ ?_)
    · exact .next (copies_readSign _) fun _ => .next ih.expression fun _ => .pure rfl
    · exact .next (copies_readSign _) fun _ => .next hitems fun _ => .pure rfl
  refine .look fun _ => .ite (copies_readWord _) (.bind (ih.path false) fun path => ?_)
  refine .look fun _ => .look fun _ => .ite ?_ (.look fun _ => .ite ?_ (.pure rfl))
  · exact .next (copies_readSign _) fun _ => .next copies_readAnyGroup fun _ => .pure rfl
  · exact .next (copies_readGroup ih.members _) fun _ => .pure rfl

theorem copies_readMembers : CopiesFrom id [] (readMembers (limit + 1)) := by
  have hmore (member : List Token) : CopiesFrom id member (do
      if ← isAtEnd then return member
      let comma ← readSign ","
      let more ← readMembers limit
      return member ++ comma ++ more) :=
    .look fun _ => .ite (.pure rfl)
      (.next (copies_readSign _) fun _ => .next ih.members fun _ => .pure rfl)
  rw [readMembers]
  refine .look fun _ => .ite (.pure rfl) (.look fun _ => .ite ?_ ?_)
  · refine .bind (copies_readSign _) fun _ => .look fun _ => .ite (.pure rfl) ?_
    exact .next ih.expression fun _ => .pure rfl
  have hname : CopiesFrom id [] (do return [(← readName).token]) :=
    .bind copies_readName fun _ => .pure rfl
  refine .bind ih.attributes fun attributes => .look fun isIndexed => .ite ?_ ?_
  · refine .next copies_readIndex fun index => .look fun _ => .ite ?_ ?_
    · refine .next (copies_readSign _) fun colon => .next ih.expression fun e => .pure_bind ?_
      exact (hmore _).of_eq (List.append_assoc _ _ _).symm
    · exact .pure_bind ((hmore _).of_eq (List.append_nil _))
  · refine .next hname fun name => .look fun _ => .ite ?_ ?_
    · refine .next (copies_readSign _) fun colon => .next ih.expression fun e => .pure_bind ?_
      exact (hmore _).of_eq (List.append_assoc _ _ _).symm
    · exact .pure_bind ((hmore _).of_eq (List.append_nil _))

theorem copyingUpTo_succ : CopyingUpTo (limit + 1) where
  argument := copies_readArgument ih
  arguments := copies_readArguments ih
  segment := copies_readSegment ih
  segments := copies_readSegments ih
  path := copies_readPath ih
  type := copies_readType ih
  attributes := copies_readAttributes ih
  expression := copies_readExpression ih
  continued := copies_readContinued ih
  operand := copies_readOperand ih
  tighter := copies_readTighter ih
  range := copies_readRange ih
  prefixed := copies_readPrefixed ih
  suffixes := copies_readSuffixes ih
  atom := copies_readAtom ih
  members := copies_readMembers ih

end Step

/-- **All readings of the grammar copy what they take.** -/
theorem copyingUpTo (limit : Nat) : CopyingUpTo limit := by
  induction limit with
  | zero => exact copyingUpTo_zero
  | succ limit ih => exact copyingUpTo_succ ih

theorem copies_readVisibility : CopiesFrom id [] readVisibility := by
  rw [readVisibility]
  refine .look fun _ => .ite ?_ (.pure rfl)
  refine .bind (copies_readWord _) fun _ => .look fun _ => .ite ?_ (.pure rfl)
  refine .next (copies_readGroup (.look fun _ => .ite ?_ ?_) _) fun _ => .pure rfl
  · exact .bind (copies_readWord _) fun _ => .next copies_readPlainPath fun _ => .pure rfl
  · exact .orElse (copies_readWord _) (.orElse (copies_readWord _) (copies_readWord _))

end Declaration
end Determinization
