import Determinization.Proofs.Encoding.Grammar
import Determinization.Proofs.Text.Listing

/-!
# Every text is read

What the grammar derives as a text of an encoding, the reader reads as that encoding
(`read_of_isTextOf`), however many blanks there are and however the numbers are written.

Readers take the longest beginning of a text that they can use.  So each of them reads an item
provided that what follows cannot belong to the item: a number has to be followed by something that
is not a digit, and a list by something that is not a separator with an item after it.  What the
three kinds of lists need of their items and separators is the same (`Reads`), and that lists are
read is proved once from it (`Reads.readMore`, `Reads.readList`).
-/

namespace Determinization

namespace Encoding

open Grammar

variable {c : Char} {n : UInt32} {x : Symbol} {t : Edge UInt32} {g p q r s : List Char}

/-! ## Items are read -/

/-- **A number is read where no digit follows it.** -/
theorem readNumber_append (h : Numeral n s) (hr : EndsNumber r) :
    readNumber (s ++ r) = some (n, r) := by
  have hspan : r.takeWhile Char.isDigit = [] ∧ r.dropWhile Char.isDigit = r := by
    cases r with
    | nil => exact ⟨rfl, rfl⟩
    | cons c t =>
        rw [List.takeWhile_cons, List.dropWhile_cons, hr c t rfl]
        exact ⟨rfl, rfl⟩
  have hempty : s.isEmpty = false := List.isEmpty_eq_false_iff.2 h.ne_nil
  have hlimit : ¬ numberLimit ≤ n.toNat := Nat.not_le.2 n.toNat_lt
  rw [readNumber, List.takeWhile_append_of_pos h.isDigit, List.dropWhile_append_of_pos h.isDigit,
    hspan.1, hspan.2, List.append_nil, h.value_eq]
  simp only [hempty, hlimit, decide_false, Bool.or_false, Bool.false_eq_true, if_false,
    UInt32.ofNat_toNat]

theorem readSymbol_append (h : Letter c s) (r : List Char) :
    readSymbol (s ++ r) = some (c, r) := by
  obtain ⟨hc, rfl⟩ := h
  exact if_pos hc

theorem readGap_append (h : Gap g) (s : List Char) : readGap (g ++ s) = some (skipBlanks s) := by
  obtain ⟨hne, hblanks⟩ := h
  obtain ⟨c, g, rfl⟩ := List.exists_cons_of_ne_nil hne
  obtain ⟨hc, hg⟩ := blanks_cons.1 hblanks
  rw [List.cons_append, readGap, if_pos hc, skipBlanks_append hg]

theorem readSeparator_append (hc : Text.isSkipped c = false) (h : Separator c g)
    (s : List Char) : readSeparator c (g ++ s) = some (skipBlanks s) := by
  obtain ⟨p, q, hp, hq, rfl⟩ := h
  have hsolid : Solid (c :: (q ++ s)) := ⟨c, q ++ s, rfl, hc⟩
  rw [readSeparator, List.append_assoc, skipBlanks_append hp, List.cons_append,
    hsolid.skipBlanks_eq]
  simp only [if_true, skipBlanks_append hq]

/-- A label is read before a comma, and the comma is what follows. -/
theorem exists_readLabel (h : Label x s) (hg : Separator ',' g) (r : List Char) :
    ∃ u, readLabel (skipBlanks (s ++ (g ++ r))) = (x, u) ∧
      readSeparator ',' u = some (skipBlanks r) := by
  cases x with
  | epsilon =>
      -- nothing is written for the label, so the blanks before the comma are skipped already
      obtain rfl : s = [] := h
      obtain ⟨p, q, hp, hq, rfl⟩ := hg
      have hcomma : Separator ',' (',' :: q) := ⟨[], q, blanks_nil, hq, rfl⟩
      refine ⟨',' :: q ++ r, ?_, readSeparator_append rfl hcomma r⟩
      rw [List.nil_append, List.append_assoc, skipBlanks_append hp]
      rfl
  | char c =>
      have hletter : Letter c s := h
      refine ⟨g ++ r, ?_, readSeparator_append rfl hg r⟩
      rw [(hletter.solid.append _).skipBlanks_eq, readLabel, readSymbol_append hletter]

/-- **A transition is read where no digit follows it.** -/
theorem readTransition_append (h : Arrow t s) (hr : EndsNumber r) :
    readTransition (s ++ r) = some (t, r) := by
  obtain ⟨p, g, l, g', q, hp, hg, hl, hg', hq, rfl⟩ := h
  obtain ⟨u, hlabel, hcomma⟩ := exists_readLabel hl hg' (q ++ r)
  simp only [List.append_assoc]
  rw [readTransition, readNumber_append hp (hg.endsNumber rfl _)]
  simp only [Option.bind_eq_bind, Option.bind_some, readSeparator_append rfl hg, hlabel, hcomma,
    (hq.solid.append r).skipBlanks_eq, readNumber_append hq hr]
  rfl

/-! ## Lists are read -/

section Lists

variable {α : Type} {readBetween : List Char → Option (List Char)}
  {readItem : List Char → Option (α × List Char)} {between ends : List Char → Prop}
  {item : α → List Char → Prop} {l : List α} {limit : Nat}

/-- The readers read what the rules derive, items where what follows ends them. -/
structure Reads (readBetween : List Char → Option (List Char))
    (readItem : List Char → Option (α × List Char)) (between ends : List Char → Prop)
    (item : α → List Char → Prop) : Prop where
  ne_nil : ∀ {g}, between g → g ≠ []
  ends_append : ∀ {g}, between g → ∀ r, ends (g ++ r)
  solid : ∀ {a p}, item a p → Solid p
  between_append : ∀ {g}, between g → ∀ r, readBetween (g ++ r) = some (skipBlanks r)
  item_append : ∀ {a p r}, item a p → ends r → readItem (p ++ r) = some (a, r)

theorem Grammar.More.length_le (h : More between item l s) (hne : ∀ {g}, between g → g ≠ []) :
    l.length ≤ s.length := by
  induction h with
  | nil => exact Nat.le_refl 0
  | cons gap _ _ ih =>
      have hpos := List.length_pos_iff.2 (hne gap)
      simp only [List.length_cons, List.length_append]
      omega

namespace Reads

variable (h : Reads readBetween readItem between ends item)

include h

theorem ends_more (hl : More between item l s) (hr : ends r) : ends (s ++ r) := by
  cases hl with
  | nil => exact hr
  | cons gap _ _ =>
      rw [List.append_assoc]
      exact h.ends_append gap _

/-- **Further items are read** up to a rest that ends them and does not go on with an item. -/
theorem readMore (hl : More between item l s) (hr : ends r)
    (hstop : ∀ u, readBetween r = some u → readItem u = none) (hlimit : l.length ≤ limit) :
    readMore readBetween readItem limit (s ++ r) = (l, r) := by
  induction hl generalizing limit with
  | nil =>
      cases limit with
      | zero => rfl
      | succ limit =>
          rw [List.nil_append, Encoding.readMore]
          cases hbetween : readBetween r with
          | none => rfl
          | some u => simp only [hstop u hbetween]
  | @cons a l g p s gap first rest ih =>
      -- the limit has room for this item, and for the others after it
      obtain ⟨k, rfl⟩ : ∃ k, limit = k + 1 :=
        Nat.exists_eq_add_one.2 (Nat.lt_of_lt_of_le (Nat.succ_pos _) hlimit)
      have hrest := ih (Nat.le_of_succ_le_succ hlimit)
      have hsolid : skipBlanks (p ++ (s ++ r)) = p ++ (s ++ r) :=
        ((h.solid first).append _).skipBlanks_eq
      simp only [List.append_assoc]
      rw [Encoding.readMore, h.between_append gap, hsolid]
      simp only [h.item_append first (h.ends_more rest hr), hrest]

/-- **A list is read** that blanks may precede.  Where it is empty, the blanks of the rest are taken
for those before it. -/
theorem readList (hl : Items between item l s) (hr : ends r)
    (hstop : ∀ u, readBetween r = some u → readItem u = none)
    (hnone : readItem (skipBlanks r) = none) :
    ∃ u, (u = r ∨ u = skipBlanks r) ∧
      readList readBetween readItem (skipBlanks (s ++ r)) = (l, u) := by
  cases hl with
  | nil =>
      refine ⟨skipBlanks r, Or.inr rfl, ?_⟩
      rw [List.nil_append, Encoding.readList, hnone]
  | @cons a l p s first rest =>
      refine ⟨r, Or.inl rfl, ?_⟩
      have hlimit : l.length ≤ (p ++ (s ++ r)).length := by
        have hlength := rest.length_le h.ne_nil
        simp only [List.length_append]
        omega
      rw [List.append_assoc, ((h.solid first).append _).skipBlanks_eq, Encoding.readList,
        h.item_append first (h.ends_more rest hr)]
      simp only [h.readMore rest hr hstop hlimit]

end Reads

end Lists

theorem reads_numbers : Reads readGap readNumber Gap EndsNumber Numeral where
  ne_nil := And.left
  ends_append := Gap.endsNumber
  solid := Numeral.solid
  between_append := readGap_append
  item_append := readNumber_append

theorem reads_letters : Reads readGap readSymbol Gap (fun _ => True) Letter where
  ne_nil := And.left
  ends_append _ _ := trivial
  solid := Letter.solid
  between_append := readGap_append
  item_append h _ := readSymbol_append h _

theorem reads_arrows :
    Reads (readSeparator ';') readTransition (Separator ';') EndsNumber Arrow where
  ne_nil := by
    rintro g ⟨p, q, -, -, rfl⟩
    exact List.append_ne_nil_of_right_ne_nil p (List.cons_ne_nil _ _)
  ends_append := Separator.endsNumber rfl
  solid := Arrow.solid
  between_append := readSeparator_append rfl
  item_append := readTransition_append

/-! ## Fields are read -/

section Fields

variable {α : Type} {read : List Char → α × List Char} {a : α} {field : Field}

/-- A field is read whole when nothing but blanks is left of it. -/
theorem wholeField_eq_ok_iff :
    wholeField field read s = .ok a ↔
      ∃ u, read (skipBlanks s) = (a, u) ∧ skipBlanks u = [] := by
  obtain ⟨b, u, hread⟩ : ∃ b u, read (skipBlanks s) = (b, u) := ⟨_, _, rfl⟩
  rw [wholeField, hread]
  cases hu : skipBlanks u with
  | nil =>
      simp only [hu, Except.ok.injEq, Prod.mk.injEq]
      constructor
      · rintro rfl
        exact ⟨u, ⟨rfl, rfl⟩, hu⟩
      · rintro ⟨-, ⟨rfl, -⟩, -⟩
        rfl
  | cons c v =>
      simp only [hu, reduceCtorEq, Prod.mk.injEq, false_iff, not_exists, not_and]
      rintro v ⟨-, rfl⟩ hv
      rw [hu] at hv
      cases hv

theorem numberedField_eq_ok_iff :
    numberedField field read s = .ok a ↔
      (∃ m, readNumber (skipBlanks s) = some m) ∧ wholeField field read s = .ok a := by
  rw [numberedField]
  cases hread : readNumber (skipBlanks s) with
  | none => simp
  | some m => simp

end Fields

/-- Nothing follows blanks at the end of a field. -/
theorem eq_nil_of_readGap {u : List Char} (hr : Blanks r) (hu : readGap r = some u) : u = [] := by
  cases r with
  | nil => cases hu
  | cons c r =>
      obtain ⟨hc, hblanks⟩ := blanks_cons.1 hr
      rw [readGap, if_pos hc, skipBlanks_blanks hblanks] at hu
      exact (Option.some.inj hu).symm

/-- **A field of items with blanks between them is read.** -/
theorem Reads.wholeField_items {α : Type} {readItem : List Char → Option (α × List Char)}
    {ends : List Char → Prop} {item : α → List Char → Prop} {l : List α}
    (h : Reads readGap readItem Gap ends item) (hends : ∀ {r}, Blanks r → ends r)
    (hnone : readItem [] = none) (field : Field) (hs : Padded (Items Gap item l) s) :
    wholeField field (Encoding.readList readGap readItem) s = .ok l := by
  obtain ⟨p, q, r, hp, hq, hr, rfl⟩ := hs
  have hskip : skipBlanks r = [] := skipBlanks_blanks hr
  obtain ⟨u, hu, hread⟩ := h.readList hq (hends hr)
    (fun u hu => eq_nil_of_readGap hr hu ▸ hnone) (hskip ▸ hnone)
  rw [wholeField_eq_ok_iff, skipBlanks_append hp]
  refine ⟨u, hread, ?_⟩
  rcases hu with rfl | rfl
  · exact hskip
  · rw [skipBlanks_skipBlanks, hskip]

theorem wholeField_numbers {l : List UInt32} (field : Field) (hs : Padded (Numbers l) s) :
    wholeField field readNumbers s = .ok l :=
  reads_numbers.wholeField_items endsNumber_blanks rfl field hs

theorem wholeField_letters {l : List Char} (hs : Padded (Letters l) s) :
    wholeField .alphabet readSymbols s = .ok l :=
  reads_letters.wholeField_items (fun _ => trivial) rfl .alphabet hs

theorem numberedField_numbers {l : List UInt32} (hl : l ≠ []) (hs : Padded (Numbers l) s) :
    numberedField .states readNumbers s = .ok l := by
  refine numberedField_eq_ok_iff.2 ⟨?_, wholeField_numbers .states hs⟩
  obtain ⟨p, q, r, hp, hq, hr, rfl⟩ := hs
  cases hq with
  | nil => exact absurd rfl hl
  | @cons n l q q' first rest =>
      have hends := reads_numbers.ends_more rest (endsNumber_blanks hr)
      rw [skipBlanks_append hp, List.append_assoc, (first.solid.append _).skipBlanks_eq]
      exact ⟨_, readNumber_append first hends⟩

theorem numberedField_numeral (hs : Padded (Numeral n) s) :
    numberedField .initial readInitial s = .ok n := by
  obtain ⟨p, q, r, hp, hq, hr, rfl⟩ := hs
  have hread : readNumber (skipBlanks (p ++ (q ++ r))) = some (n, r) := by
    rw [skipBlanks_append hp, (hq.solid.append r).skipBlanks_eq]
    exact readNumber_append hq (endsNumber_blanks hr)
  rw [numberedField_eq_ok_iff, wholeField_eq_ok_iff]
  refine ⟨⟨_, hread⟩, r, ?_, skipBlanks_blanks hr⟩
  rw [readInitial, hread]
  rfl

/-- What may follow the last transition: blanks, or a semicolon among blanks. -/
def Closing (s : List Char) : Prop := Blanks s ∨ Separator ';' s

namespace Closing

theorem endsNumber (h : Closing s) : EndsNumber s := by
  rcases h with h | h
  · exact endsNumber_blanks h
  · have hends := h.endsNumber rfl []
    rwa [List.append_nil] at hends

/-- Nothing follows the semicolon, or there is nothing but blanks. -/
theorem readSeparator_eq (h : Closing s) :
    readSeparator ';' s = none ∧ skipBlanks s = [] ∨ readSeparator ';' s = some [] := by
  rcases h with h | h
  · left
    have hskip : skipBlanks s = [] := skipBlanks_blanks h
    rw [readSeparator, hskip]
    exact ⟨rfl, rfl⟩
  · right
    have hread := readSeparator_append rfl h []
    rwa [List.append_nil] at hread

theorem skipBlanks_eq (h : Closing s) :
    skipBlanks s = [] ∨ ∃ q, Blanks q ∧ skipBlanks s = ';' :: q := by
  rcases h with h | ⟨p, q, hp, hq, rfl⟩
  · exact Or.inl (skipBlanks_blanks h)
  · exact Or.inr ⟨q, hq, skipBlanks_append hp _⟩

theorem closing_skipBlanks (h : Closing s) : Closing (skipBlanks s) := by
  rcases h.skipBlanks_eq with heq | ⟨q, hq, heq⟩
  · rw [heq]
    exact Or.inl blanks_nil
  · rw [heq]
    exact Or.inr ⟨[], q, blanks_nil, hq, rfl⟩

/-- No transition follows the semicolon. -/
theorem readTransition_after (h : Closing s) {u : List Char} (hu : readSeparator ';' s = some u) :
    readTransition u = none := by
  rcases h.readSeparator_eq with ⟨hnone, -⟩ | hnil
  · rw [hnone] at hu
    cases hu
  · rw [hnil] at hu
    obtain rfl := Option.some.inj hu
    rfl

/-- No transition precedes the semicolon either. -/
theorem readTransition_eq_none (h : Closing s) : readTransition (skipBlanks s) = none := by
  rcases h.skipBlanks_eq with heq | ⟨q, -, heq⟩
  · rw [heq]
    rfl
  · rw [heq]
    rfl

/-- The semicolon is taken, and then nothing but blanks is left. -/
theorem skipBlanks_getD (h : Closing s) :
    skipBlanks ((readSeparator ';' s).getD s) = [] := by
  rcases h.readSeparator_eq with ⟨hnone, hskip⟩ | hnil
  · rw [hnone]
    exact hskip
  · rw [hnil]
    rfl

end Closing

/-- **The transitions are read**, and the semicolon that may follow them. -/
theorem wholeField_arrows {l : List (Edge UInt32)} (hs : Padded (Arrows l) s) :
    wholeField .transitions readTransitions s = .ok l := by
  obtain ⟨p, q, r, hp, ⟨q, v, hq, hv, rfl⟩, hr, rfl⟩ := hs
  have hclosing : Closing (v ++ r) := by
    rcases hv with rfl | ⟨v, v', hv, hv', rfl⟩
    · exact Or.inl hr
    · refine Or.inr ⟨v, v' ++ r, hv, blanks_append.2 ⟨hv', hr⟩, ?_⟩
      rw [List.append_assoc, List.cons_append]
  obtain ⟨u, hu, hread⟩ := reads_arrows.readList hq hclosing.endsNumber
    (fun _ => hclosing.readTransition_after) hclosing.readTransition_eq_none
  have hclosing' : Closing u := by
    rcases hu with rfl | rfl
    · exact hclosing
    · exact hclosing.closing_skipBlanks
  rw [List.append_assoc, wholeField_eq_ok_iff, skipBlanks_append hp]
  refine ⟨_, ?_, hclosing'.skipBlanks_getD⟩
  rw [readTransitions, hread]

/-! ## Texts are read -/

variable {e : Encoding} {states alphabet transitions initial accepting : List Char}

theorem bind_eq_ok_iff {α β : Type} {x : Except Error α} {f : α → Except Error β} {b : β} :
    (x >>= f) = .ok b ↔ ∃ a, x = .ok a ∧ f a = .ok b := by
  cases x with
  | error e =>
      constructor
      · rintro ⟨⟩
      · rintro ⟨a, ⟨⟩, -⟩
  | ok a =>
      constructor
      · intro h
        exact ⟨a, rfl, h⟩
      · rintro ⟨_, ⟨⟩, h⟩
        exact h

/-- The fields are read one by one. -/
theorem ofFields_eq_ok_iff :
    ofFields states alphabet transitions initial accepting = .ok e ↔
      numberedField .states readNumbers states = .ok e.states ∧
        wholeField .alphabet readSymbols alphabet = .ok e.alphabet ∧
        wholeField .transitions readTransitions transitions = .ok e.transitions ∧
        numberedField .initial readInitial initial = .ok e.initial ∧
        wholeField .accepting readNumbers accepting = .ok e.accepting := by
  simp only [ofFields, bind_eq_ok_iff]
  constructor
  · rintro ⟨_, hstates, _, halphabet, _, htransitions, _, hinitial, _, haccepting, ⟨⟩⟩
    exact ⟨hstates, halphabet, htransitions, hinitial, haccepting⟩
  · rintro ⟨hstates, halphabet, htransitions, hinitial, haccepting⟩
    exact ⟨_, hstates, _, halphabet, _, htransitions, _, hinitial, _, haccepting, rfl⟩

theorem Grammar.Fields.ofFields_eq (h : Fields e states alphabet transitions initial)
    (haccepting : wholeField .accepting readNumbers accepting = .ok e.accepting) :
    ofFields states alphabet transitions initial accepting = .ok e :=
  ofFields_eq_ok_iff.2 ⟨numberedField_numbers h.states_ne_nil h.states,
    wholeField_letters h.alphabet, wholeField_arrows h.transitions,
    numberedField_numeral h.initial, haccepting⟩

/-- **A text is read as what it is a text of.** -/
theorem read_of_isTextOf (h : IsTextOf s e) : read s = .ok e := by
  cases h with
  | four fields none =>
      rw [read, Text.pieces_join fields.slashless (List.cons_ne_nil _ _)]
      exact fields.ofFields_eq (none.symm ▸ rfl)
  | @five _ states alphabet transitions initial accepting fields last =>
      have hpieces : ∀ p ∈ [states, alphabet, transitions, initial, accepting], '/' ∉ p := by
        have hall : ∀ p ∈ [states, alphabet, transitions, initial] ++ [accepting], '/' ∉ p :=
          List.forall_mem_append.2 ⟨fields.slashless,
            List.forall_mem_singleton.2 (last.slashless Numbers.slashless)⟩
        exact hall
      rw [read, Text.pieces_join hpieces (List.cons_ne_nil _ _)]
      exact fields.ofFields_eq (wholeField_numbers .accepting last)

end Encoding
end Determinization
