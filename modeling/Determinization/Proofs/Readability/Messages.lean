import Determinization.Error
import Determinization.Proofs.Readability.Quoted
import Determinization.Proofs.Readability.States

/-!
# What messages say

An error is shown by its message, so all that it says has to be found there.

* The opening words tell the kind of the error (`Error.kind_eq_of_message_eq`), because no opening
  is the beginning of another one.
* The states that a message names can then be read off in their places
  (`Error.states_eq_of_message_eq`).
* A message about a malformed field names the field, shows it, shows between quotes what was not
  read of it, and says what was expected there (`Error.SaysMalformed`).  The field is shown as it is
  and could contain anything, even another such message.  Still the message can be understood in one
  way only (`Error.SaysMalformed.unique`): the name of the field is read from the front, what was
  expected and the quoted text from the end.
* A message about a reserved symbol shows the symbol between quotes, and no other error has the
  message (`Error.message_eq_reserved_iff`).

What the messages are compared with here is written out in full, with the names of the fields.
-/

namespace Determinization

open Encoding (EndsNumber endsNumber_cons)

/-! ## Kinds of messages -/

namespace Error

/-- What an error is about. -/
inductive Kind where
  | undeclaredState (place : Place)
  | undeclaredSymbol
  | targetCount
  | fieldCount
  | badField
  | reservedSymbol
  deriving DecidableEq

namespace Kind

/-- The words with which the messages of a kind begin. -/
def opening : Kind → List Char
  | undeclaredState place => place.name.toList ++ [' ']
  | undeclaredSymbol => "transition ".toList ++ ['(']
  | targetCount => "state ".toList
  | fieldCount => "malformed encoding: expected 5 fields separated by '/', found ".toList
  | badField => "malformed encoding: invalid ".toList
  | reservedSymbol => "malformed encoding: symbol ".toList

/-- All kinds of errors. -/
def all : List Kind :=
  [undeclaredState .initial, undeclaredState .accepting, undeclaredState .source,
    undeclaredState .target, undeclaredSymbol, targetCount, fieldCount, badField, reservedSymbol]

theorem mem_all (k : Kind) : k ∈ all := by
  rcases k with place | _ | _ | _ | _ | _
  · cases place <;> decide
  all_goals decide

/-- No opening is the beginning of another one. -/
theorem eq_of_opening_prefix {k k' : Kind} (h : k.opening <+: k'.opening) : k = k' := by
  have hall : ∀ k ∈ all, ∀ k' ∈ all, k.opening <+: k'.opening → k = k' := by decide +kernel
  exact hall k k.mem_all k' k'.mem_all h

end Kind

/-- The kind of an error. -/
def kind : Error → Kind
  | undeclaredState place _ => .undeclaredState place
  | undeclaredSymbol _ => .undeclaredSymbol
  | targetCount .. => .targetCount
  | fieldCount _ => .fieldCount
  | badField .. => .badField
  | reservedSymbol _ => .reservedSymbol

/-- The states that a message names, in the order in which it names them. -/
def states : Error → List State
  | undeclaredState _ s => [s]
  | undeclaredSymbol t => [t.source, t.target]
  | targetCount s _ _ => [s]
  | fieldCount _ => []
  | badField .. => []
  | reservedSymbol _ => []

variable {e e' : Error}

theorem message_undeclaredState (place : Place) (s : State) :
    (undeclaredState place s).message =
      place.name.toList ++ [' '] ++ (s.text ++ " is not a declared state".toList) :=
  List.append_assoc _ _ _

theorem message_undeclaredSymbol (t : Transition) :
    (undeclaredSymbol t).message = "transition ".toList ++ (Transition.shownText t.shown ++
      ' ' :: ("uses symbol ".toList ++ (t.label.text ++
        " which is not in the alphabet".toList))) := by
  have hmessage : (undeclaredSymbol t).message = "transition ".toList ++ t.text ++
      " uses symbol ".toList ++ t.label.text ++ " which is not in the alphabet".toList := rfl
  rw [hmessage, Transition.text_eq_shownText]
  simp only [List.append_assoc]
  rfl

theorem message_targetCount (s : State) (c : Char) (n : Nat) :
    (targetCount s c n).message = "state ".toList ++ (s.text ++ ' ' :: ("has ".toList ++
      (Text.decimal n ++ (" transitions on symbol ".toList ++ ([c] ++
        ", a DFA needs exactly one".toList))))) := by
  have hmessage : (targetCount s c n).message = "state ".toList ++ s.text ++ " has ".toList ++
      Text.decimal n ++ " transitions on symbol ".toList ++ [c] ++
      ", a DFA needs exactly one".toList := rfl
  rw [hmessage]
  simp only [List.append_assoc]
  rfl

theorem message_fieldCount (n : Nat) :
    (fieldCount n).message =
      "malformed encoding: expected 5 fields separated by '/', found ".toList ++
        Nat.toDigits 10 n := rfl

/-- The message about a malformed field. -/
def malformedText (name : String) (piece rest : List Char) (code : String) : List Char :=
  "malformed encoding: invalid ".toList ++ name.toList ++ " field \x60".toList ++
    Text.trim piece ++ "\x60: Parsing Error: Error \x7b input: ".toList ++ Text.quoted rest ++
      ", code: ".toList ++ code.toList ++ " \x7d".toList

theorem message_badField (field : Field) (content rest : List Char) (expected : Expectation) :
    (badField field content rest expected).message =
      malformedText field.name content rest expected.name := rfl

/-- From the front, the name of the field; from the end, what was expected and a quoted text behind
a space. -/
theorem malformedText_eq (name : String) (piece rest : List Char) (code : String) :
    malformedText name piece rest code = "malformed encoding: invalid ".toList ++ (name.toList ++
      (" field \x60".toList ++ (Text.trim piece ++
        "\x60: Parsing Error: Error \x7b input:".toList ++ ' ' :: Text.quoted rest ++
          ", code: ".toList ++ code.toList ++ " \x7d".toList))) := by
  have hspace : malformedText name piece rest code =
      "malformed encoding: invalid ".toList ++ name.toList ++ " field \x60".toList ++
        Text.trim piece ++ ("\x60: Parsing Error: Error \x7b input:".toList ++ [' ']) ++
          Text.quoted rest ++ ", code: ".toList ++ code.toList ++ " \x7d".toList := rfl
  rw [hspace]
  simp only [List.append_assoc, List.cons_append, List.nil_append]

theorem message_reservedSymbol (c : Char) :
    (reservedSymbol c).message = "malformed encoding: symbol ".toList ++ (Text.quotedChar c ++
      " is reserved by the encoding and cannot be part of an alphabet".toList) :=
  List.append_assoc _ _ _

/-- **Every message begins with the opening of its kind.** -/
theorem opening_prefix_message (e : Error) : e.kind.opening <+: e.message := by
  cases e with
  | undeclaredState place s =>
      rw [message_undeclaredState]
      exact List.prefix_append _ _
  | undeclaredSymbol t =>
      have hbracket : ∀ s, ['('] <+: Transition.shownText t.shown ++ s := fun s =>
        List.cons_prefix_cons.2 ⟨rfl, List.nil_prefix⟩
      rw [message_undeclaredSymbol]
      exact (List.prefix_append_right_inj _).2 (hbracket _)
  | targetCount s c n =>
      rw [message_targetCount]
      exact List.prefix_append _ _
  | fieldCount n =>
      rw [message_fieldCount]
      exact List.prefix_append _ _
  | badField field content rest expected =>
      rw [message_badField, malformedText_eq]
      exact List.prefix_append _ _
  | reservedSymbol c =>
      rw [message_reservedSymbol]
      exact List.prefix_append _ _

/-- **The message tells what the error is about.** -/
theorem kind_eq_of_message_eq (h : e.message = e'.message) : e.kind = e'.kind := by
  have he := e.opening_prefix_message
  rw [h] at he
  rcases List.prefix_or_prefix_of_prefix he e'.opening_prefix_message with hprefix | hprefix
  · exact Kind.eq_of_opening_prefix hprefix
  · exact (Kind.eq_of_opening_prefix hprefix).symm

/-- **The message tells which states it names.** -/
theorem states_eq_of_message_eq (h : e.message = e'.message) : e.states = e'.states := by
  have hkind := kind_eq_of_message_eq h
  cases e with
  | undeclaredState place s =>
      cases e' with
      | undeclaredState place' s' =>
          obtain rfl : place = place' := Kind.undeclaredState.inj hkind
          rw [message_undeclaredState, message_undeclaredState] at h
          have htext := List.append_cancel_right (List.append_cancel_left h)
          rw [states, states, s.readable_text.eq htext]
      | _ => cases hkind
  | undeclaredSymbol t =>
      cases e' with
      | undeclaredSymbol t' =>
          rw [message_undeclaredSymbol, message_undeclaredSymbol] at h
          obtain ⟨hshown, -⟩ := Transition.readable_shownText t.shown t'.shown _ _
            (endsNumber_cons (by decide)) (endsNumber_cons (by decide))
            (List.append_cancel_left h)
          have hsource : t.source = t'.source := congrArg (fun p => p.1) hshown
          have htarget : t.target = t'.target := congrArg (fun p => p.2.2) hshown
          rw [states, states, hsource, htarget]
      | _ => cases hkind
  | targetCount s c n =>
      cases e' with
      | targetCount s' c' n' =>
          rw [message_targetCount, message_targetCount] at h
          obtain ⟨hs, -⟩ := s.readable_text s' _ _ (endsNumber_cons (by decide))
            (endsNumber_cons (by decide)) (List.append_cancel_left h)
          rw [states, states, hs]
      | _ => cases hkind
  | _ =>
      cases e' with
      | undeclaredState => cases hkind
      | undeclaredSymbol => cases hkind
      | targetCount => cases hkind
      | _ => rfl

/-! ## Reserved symbols -/

variable {c : Char}

/-- **The message about a reserved symbol names the symbol,** and no other error has it. -/
theorem message_eq_reserved_iff :
    e.message = "malformed encoding: symbol ".toList ++ (Text.quotedChar c ++
        " is reserved by the encoding and cannot be part of an alphabet".toList) ↔
      e = .reservedSymbol c := by
  constructor
  · intro h
    have hkind : e.kind = .reservedSymbol :=
      kind_eq_of_message_eq (h.trans (message_reservedSymbol c).symm)
    cases e with
    | reservedSymbol d =>
        rw [message_reservedSymbol] at h
        rw [(Text.quotedChar_inj (List.append_cancel_left h)).1]
    | _ => cases hkind
  · rintro rfl
    exact message_reservedSymbol c

end Error

/-! ## Malformed fields -/

/-- How messages call the fields. -/
inductive Field.IsCalled : Field → String → Prop where
  | states : IsCalled .states "states"
  | alphabet : IsCalled .alphabet "alphabet"
  | transitions : IsCalled .transitions "transitions"
  | initial : IsCalled .initial "initial state"
  | accepting : IsCalled .accepting "accepting states"

/-- How messages call what was expected. -/
inductive Expectation.IsCalled : Expectation → String → Prop where
  | number : IsCalled .number "Digit"
  | nothing : IsCalled .nothing "Eof"

theorem Field.isCalled_name (field : Field) : field.IsCalled field.name := by
  cases field <;> constructor

theorem Expectation.isCalled_name (expected : Expectation) :
    expected.IsCalled expected.name := by
  cases expected <;> constructor

/-- No name of a field begins another one. -/
theorem Field.IsCalled.eq_of_append {field field' : Field} {name name' : String} {s t : List Char}
    (h : field.IsCalled name) (h' : field'.IsCalled name')
    (heq : name.toList ++ s = name'.toList ++ t) : field = field' ∧ name = name' := by
  cases h <;> cases h' <;> simp at heq ⊢

/-- What was expected is told apart by how the names end. -/
theorem Expectation.IsCalled.eq_of_append {expected expected' : Expectation} {code code' : String}
    {s t : List Char} (h : expected.IsCalled code) (h' : expected'.IsCalled code')
    (heq : s ++ code.toList = t ++ code'.toList) : expected = expected' ∧ code = code' := by
  have hlast := congrArg List.getLast? heq
  cases h <;> cases h' <;> simp at hlast ⊢

namespace Error

/-- The message says that a field is malformed.  It names the field, shows it without the white
space around it, shows what was not read of it, and names what was expected there. -/
def SaysMalformed (message : List Char) (field : Field) (piece rest : List Char)
    (expected : Expectation) : Prop :=
  ∃ name code, field.IsCalled name ∧ expected.IsCalled code ∧
    message = malformedText name piece rest code

theorem saysMalformed_message (field : Field) (piece rest : List Char) (expected : Expectation) :
    SaysMalformed (badField field piece rest expected).message field piece rest expected :=
  ⟨field.name, expected.name, field.isCalled_name, expected.isCalled_name,
    message_badField field piece rest expected⟩

/-- **A message about a malformed field can be understood in one way only.** -/
theorem SaysMalformed.unique {message piece piece' rest rest' : List Char} {field field' : Field}
    {expected expected' : Expectation} (h : SaysMalformed message field piece rest expected)
    (h' : SaysMalformed message field' piece' rest' expected') :
    field = field' ∧ Text.trim piece = Text.trim piece' ∧ rest = rest' ∧ expected = expected' := by
  obtain ⟨name, code, hname, hcode, rfl⟩ := h
  obtain ⟨name', code', hname', hcode', h⟩ := h'
  rw [malformedText_eq, malformedText_eq] at h
  have hafter := List.append_cancel_left h
  obtain ⟨rfl, rfl⟩ := hname.eq_of_append hname' hafter
  have hshown := List.append_cancel_left (List.append_cancel_left hafter)
  have hbefore := List.append_cancel_right hshown
  obtain ⟨rfl, rfl⟩ := hcode.eq_of_append hcode' hbefore
  have hquoted := List.append_cancel_right (List.append_cancel_right hbefore)
  obtain ⟨hpiece, rfl⟩ := Text.quoted_inj_of_space hquoted
  exact ⟨rfl, List.append_cancel_right hpiece, rfl, rfl⟩

end Error
end Determinization
