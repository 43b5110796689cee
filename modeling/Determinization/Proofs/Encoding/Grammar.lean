import Determinization.Encoding.Reader
import Mathlib.Data.List.DropRight

/-!
# The grammar of encodings

Which texts there are for the content of an encoding is said here by rules, without a reader.  With
`B` for the blanks of the grammar, a text consists of fields with slashes between them:

* states and accepting states: `B* [num (B+ num)*] B*`, with one state at least;
* alphabet: `B* [sym (B+ sym)*] B*`;
* transitions: `B* [tr (B* ; B* tr)*] [B* ; B*] B*`, where `tr` is `num B* , B* [sym] B* , B* num`;
* initial state: `B* num B*`.

A number is any run of digits of its value, so zeros may come first.  The last field may be missing
when there are no accepting states.  `IsTextOf t e` says that `t` is a text of `e`.

Two facts about the rules are what reading depends on.  Items begin with a character that is not a
blank (`Solid`), and what may follow a number does not begin with a digit (`EndsNumber`); and no
slash is derived inside a field (`Fields.slashless`).
-/

namespace Determinization
namespace Encoding

/-! ## The rules -/

namespace Grammar

/-- Any number of blanks. -/
def Blanks (s : List Char) : Prop := ∀ c ∈ s, Text.isSkipped c = true

theorem blanks_nil : Blanks [] := fun _ h => absurd h List.not_mem_nil

theorem blanks_cons {c : Char} {s : List Char} :
    Blanks (c :: s) ↔ Text.isSkipped c = true ∧ Blanks s := List.forall_mem_cons

theorem blanks_append {s t : List Char} : Blanks (s ++ t) ↔ Blanks s ∧ Blanks t :=
  List.forall_mem_append

/-- One blank or more. -/
def Gap (s : List Char) : Prop := s ≠ [] ∧ Blanks s

/-- A separator and any number of blanks on both sides. -/
def Separator (c : Char) (s : List Char) : Prop := ∃ p q, Blanks p ∧ Blanks q ∧ s = p ++ c :: q

/-- Digits that have the number for value. -/
structure Numeral (n : UInt32) (s : List Char) : Prop where
  ne_nil : s ≠ []
  isDigit : ∀ c ∈ s, c.isDigit = true
  value_eq : Nat.ofDigitChars 10 s 0 = n.toNat

/-- A character that the grammar does not use for itself. -/
def Letter (c : Char) (s : List Char) : Prop := Symbol.isEncodable c = true ∧ s = [c]

/-- A character, or nothing for the empty word. -/
def Label : Symbol → List Char → Prop
  | .epsilon, s => s = []
  | .char c, s => Letter c s

/-- A source, a label and a target with commas between them. -/
def Arrow (t : Edge UInt32) (s : List Char) : Prop :=
  ∃ p g l g' q, Numeral t.source p ∧ Separator ',' g ∧ Label t.label l ∧ Separator ',' g' ∧
    Numeral t.target q ∧ s = p ++ (g ++ (l ++ (g' ++ q)))

section Lists

variable {α : Type} (between : List Char → Prop) (item : α → List Char → Prop)

/-- Items, each after what stands between two of them. -/
inductive More : List α → List Char → Prop where
  | nil : More [] []
  | cons {a : α} {l : List α} {g p r : List Char} (gap : between g) (first : item a p)
      (rest : More l r) : More (a :: l) (g ++ (p ++ r))

/-- Items with something between them. -/
inductive Items : List α → List Char → Prop where
  | nil : Items [] []
  | cons {a : α} {l : List α} {p r : List Char} (first : item a p)
      (rest : More between item l r) : Items (a :: l) (p ++ r)

end Lists

/-- Numbers with blanks between them. -/
def Numbers : List UInt32 → List Char → Prop := Items Gap Numeral

/-- Symbols with blanks between them. -/
def Letters : List Char → List Char → Prop := Items Gap Letter

/-- Transitions with semicolons between them, and perhaps one more semicolon. -/
def Arrows (l : List (Edge UInt32)) (s : List Char) : Prop :=
  ∃ p q, Items (Separator ';') Arrow l p ∧ (q = [] ∨ Separator ';' q) ∧ s = p ++ q

/-- A field: its content and any number of blanks around it. -/
def Padded (content : List Char → Prop) (s : List Char) : Prop :=
  ∃ p q r, Blanks p ∧ content q ∧ Blanks r ∧ s = p ++ (q ++ r)

/-- The fields that no text is without. -/
structure Fields (e : Encoding) (states alphabet transitions initial : List Char) : Prop where
  states_ne_nil : e.states ≠ []
  states : Padded (Numbers e.states) states
  alphabet : Padded (Letters e.alphabet) alphabet
  transitions : Padded (Arrows e.transitions) transitions
  initial : Padded (Numeral e.initial) initial

/-- The text has the content of the encoding. -/
inductive IsTextOf : List Char → Encoding → Prop where
  | four {e : Encoding} {states alphabet transitions initial : List Char}
      (fields : Fields e states alphabet transitions initial) (none : e.accepting = []) :
      IsTextOf (Text.join ['/'] [states, alphabet, transitions, initial]) e
  | five {e : Encoding} {states alphabet transitions initial accepting : List Char}
      (fields : Fields e states alphabet transitions initial)
      (last : Padded (Numbers e.accepting) accepting) :
      IsTextOf (Text.join ['/'] [states, alphabet, transitions, initial, accepting]) e

end Grammar

open Grammar

variable {c : Char} {n : UInt32} {x : Symbol} {t : Edge UInt32} {g p q r s : List Char}

/-! ## Where texts begin -/

/-- The text begins with a character that no reader skips. -/
def Solid (s : List Char) : Prop := ∃ c t, s = c :: t ∧ Text.isSkipped c = false

theorem Solid.append (h : Solid s) (t : List Char) : Solid (s ++ t) := by
  obtain ⟨c, u, rfl, hc⟩ := h
  exact ⟨c, u ++ t, rfl, hc⟩

theorem Solid.skipBlanks_eq (h : Solid s) : skipBlanks s = s := by
  obtain ⟨c, t, rfl, hc⟩ := h
  rw [skipBlanks, List.dropWhile_cons, hc]
  rfl

theorem skipBlanks_append (h : Blanks p) (s : List Char) : skipBlanks (p ++ s) = skipBlanks s :=
  List.dropWhile_append_of_pos h

theorem skipBlanks_blanks (h : Blanks p) : skipBlanks p = [] := by
  rw [← List.append_nil p, skipBlanks_append h]
  rfl

theorem skipBlanks_skipBlanks (s : List Char) : skipBlanks (skipBlanks s) = skipBlanks s :=
  List.dropWhile_idempotent _ s

theorem isSkipped_of_isEncodable (h : Symbol.isEncodable c = true) :
    Text.isSkipped c = false := by
  rw [Bool.eq_false_iff]
  intro hskipped
  rw [Symbol.isEncodable, Text.isBlank_of_isSkipped hskipped] at h
  cases h

theorem isEncodable_of_isDigit (h : c.isDigit = true) : Symbol.isEncodable c = true := by
  have hdigits : ∀ k < 10, Symbol.isEncodable (Char.ofNat (48 + k)) = true := by decide
  rw [Char.isDigit_iff_toNat] at h
  have hlower : 48 ≤ c.toNat := h.1
  have hupper : c.toNat ≤ 57 := h.2
  have hc := hdigits (c.toNat - 48) (by omega)
  rwa [Nat.add_sub_cancel' hlower, Char.ofNat_toNat] at hc

/-- The text does not go on with a digit. -/
def EndsNumber (s : List Char) : Prop := ∀ c t, s = c :: t → c.isDigit = false

theorem endsNumber_nil : EndsNumber [] := by
  rintro c t ⟨⟩

theorem endsNumber_cons (h : c.isDigit = false) : EndsNumber (c :: s) := by
  rintro d t heq
  rwa [← (List.cons.inj heq).1]

theorem endsNumber_append (h : Blanks p) (hs : EndsNumber s) : EndsNumber (p ++ s) := by
  cases p with
  | nil => exact hs
  | cons c p =>
      refine endsNumber_cons ?_
      rw [Bool.eq_false_iff]
      intro hdigit
      have hblank := (blanks_cons.1 h).1
      rw [isSkipped_of_isEncodable (isEncodable_of_isDigit hdigit)] at hblank
      cases hblank

theorem endsNumber_blanks (h : Blanks p) : EndsNumber p := by
  have happend := endsNumber_append h endsNumber_nil
  rwa [List.append_nil] at happend

theorem Grammar.Gap.endsNumber (h : Gap g) (s : List Char) : EndsNumber (g ++ s) := by
  obtain ⟨hne, hblanks⟩ := h
  obtain ⟨c, g, rfl⟩ := List.exists_cons_of_ne_nil hne
  exact endsNumber_cons (endsNumber_blanks hblanks c g rfl)

theorem Grammar.Separator.endsNumber (hc : c.isDigit = false) (h : Separator c g)
    (s : List Char) : EndsNumber (g ++ s) := by
  obtain ⟨p, q, hp, -, rfl⟩ := h
  rw [List.append_assoc]
  exact endsNumber_append hp (endsNumber_cons hc)

theorem Grammar.Letter.solid (h : Letter c s) : Solid s := by
  obtain ⟨hc, rfl⟩ := h
  exact ⟨c, [], rfl, isSkipped_of_isEncodable hc⟩

theorem Grammar.Numeral.solid (h : Numeral n s) : Solid s := by
  obtain ⟨c, t, rfl⟩ := List.exists_cons_of_ne_nil h.ne_nil
  exact ⟨c, t, rfl, isSkipped_of_isEncodable
    (isEncodable_of_isDigit (h.isDigit c List.mem_cons_self))⟩

theorem Grammar.Arrow.solid (h : Arrow t s) : Solid s := by
  obtain ⟨p, g, l, g', q, hp, -, -, -, -, rfl⟩ := h
  exact hp.solid.append _

/-! ## Where slashes stand -/

/-- The text can stand in a field. -/
def Slashless (s : List Char) : Prop := '/' ∉ s

theorem slashless_append : Slashless (s ++ r) ↔ Slashless s ∧ Slashless r := by
  rw [Slashless, List.mem_append, not_or]
  rfl

namespace Grammar

theorem Blanks.slashless (h : Blanks s) : Slashless s := fun hs => absurd (h '/' hs) (by decide)

theorem Numeral.slashless (h : Numeral n s) : Slashless s := fun hs =>
  absurd (h.isDigit '/' hs) (by decide)

theorem Letter.slashless (h : Letter c s) : Slashless s := by
  obtain ⟨hc, rfl⟩ := h
  intro hs
  rw [← List.mem_singleton.1 hs] at hc
  exact absurd hc (by decide)

theorem Separator.slashless (hc : c ≠ '/') (h : Separator c s) : Slashless s := by
  obtain ⟨p, q, hp, hq, rfl⟩ := h
  refine slashless_append.2 ⟨hp.slashless, fun hs => ?_⟩
  rcases List.mem_cons.1 hs with heq | hs
  · exact hc heq.symm
  · exact hq.slashless hs

theorem Label.slashless (h : Label x s) : Slashless s := by
  cases x with
  | epsilon =>
      obtain rfl : s = [] := h
      exact List.not_mem_nil
  | char c => exact Letter.slashless h

theorem Arrow.slashless (h : Arrow t s) : Slashless s := by
  obtain ⟨p, g, l, g', q, hp, hg, hl, hg', hq, rfl⟩ := h
  simp only [slashless_append]
  exact ⟨hp.slashless, hg.slashless (by decide), hl.slashless, hg'.slashless (by decide),
    hq.slashless⟩

theorem Items.slashless {α : Type} {between : List Char → Prop} {item : α → List Char → Prop}
    {l : List α} (h : Items between item l s) (hbetween : ∀ {g}, between g → Slashless g)
    (hitem : ∀ {a p}, item a p → Slashless p) : Slashless s := by
  have hmore : ∀ {m r}, More between item m r → Slashless r := by
    intro m r hr
    induction hr with
    | nil => exact List.not_mem_nil
    | cons gap first _ ih =>
        exact slashless_append.2 ⟨hbetween gap, slashless_append.2 ⟨hitem first, ih⟩⟩
  cases h with
  | nil => exact List.not_mem_nil
  | cons first rest => exact slashless_append.2 ⟨hitem first, hmore rest⟩

theorem Padded.slashless {content : List Char → Prop} (h : Padded content s)
    (hcontent : ∀ {q}, content q → Slashless q) : Slashless s := by
  obtain ⟨p, q, r, hp, hq, hr, rfl⟩ := h
  exact slashless_append.2 ⟨hp.slashless, slashless_append.2 ⟨hcontent hq, hr.slashless⟩⟩

theorem Numbers.slashless {l : List UInt32} (h : Numbers l s) : Slashless s :=
  Items.slashless h (fun hg => hg.2.slashless) Numeral.slashless

theorem Letters.slashless {l : List Char} (h : Letters l s) : Slashless s :=
  Items.slashless h (fun hg => hg.2.slashless) Letter.slashless

theorem Arrows.slashless {l : List (Edge UInt32)} (h : Arrows l s) : Slashless s := by
  obtain ⟨p, q, hp, hq, rfl⟩ := h
  refine slashless_append.2 ⟨hp.slashless (Separator.slashless (by decide)) Arrow.slashless, ?_⟩
  rcases hq with rfl | hq
  · exact List.not_mem_nil
  · exact hq.slashless (by decide)

variable {e : Encoding} {states alphabet transitions initial : List Char}

theorem Fields.slashless (h : Fields e states alphabet transitions initial) :
    ∀ p ∈ [states, alphabet, transitions, initial], Slashless p := by
  simp only [List.forall_mem_cons, List.not_mem_nil, false_implies, implies_true, and_true]
  exact ⟨h.states.slashless Numbers.slashless, h.alphabet.slashless Letters.slashless,
    h.transitions.slashless Arrows.slashless, h.initial.slashless Numeral.slashless⟩

end Grammar
end Encoding
end Determinization
