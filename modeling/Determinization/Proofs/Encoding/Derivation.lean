import Determinization.Proofs.Encoding.Reading

/-!
# Only texts are read

What the reader reads as an encoding is a text of that encoding (`isTextOf_of_read`).  Together with
the fact that every text is read, this says that the reader and the rules of the grammar describe
the same texts.

A reader hands back what it leaves of its text.  Between the text and this rest stands what the
reader has taken, and for each reader there is a rule that derives it (`Taken`).  The readers of
lists inherit this from the readers of their items and separators (`taken_of_readMore`,
`taken_of_readList`), so lists of all three kinds are treated once.
-/

namespace Determinization

namespace Encoding

open Grammar

variable {c : Char} {n : UInt32} {x : Symbol} {t : Edge UInt32} {p r s : List Char}

/-- The text goes on with the rest after a beginning that the rule derives. -/
def Taken (rule : List Char → Prop) (s r : List Char) : Prop := ∃ p, rule p ∧ s = p ++ r

/-! ## Items -/

theorem taken_skipBlanks (s : List Char) : Taken Blanks s (skipBlanks s) :=
  ⟨s.takeWhile Text.isSkipped, fun _ hc => List.mem_takeWhile_imp hc,
    List.takeWhile_append_dropWhile.symm⟩

theorem blanks_of_skipBlanks_eq_nil (h : skipBlanks s = []) : Blanks s := by
  obtain ⟨p, hp, heq⟩ := taken_skipBlanks s
  rw [h, List.append_nil] at heq
  rwa [heq]

/-- **What is read as a number is a numeral.** -/
theorem taken_of_readNumber (h : readNumber s = some (n, r)) : Taken (Numeral n) s r := by
  have hsplit : s = s.takeWhile Char.isDigit ++ s.dropWhile Char.isDigit :=
    List.takeWhile_append_dropWhile.symm
  simp only [readNumber, Bool.or_eq_true, decide_eq_true_eq] at h
  split at h
  · cases h
  · rename_i hlimit
    rw [not_or, Bool.not_eq_true, List.isEmpty_eq_false_iff, Nat.not_le] at hlimit
    obtain ⟨hne, hlt⟩ := hlimit
    obtain ⟨rfl, rfl⟩ := Prod.mk.inj (Option.some.inj h)
    refine ⟨s.takeWhile Char.isDigit, ⟨hne, fun _ hc => List.mem_takeWhile_imp hc, ?_⟩, hsplit⟩
    exact (UInt32.toNat_ofNat_of_lt' hlt).symm

/-- Where a number is known to stand, it is taken for the initial state. -/
theorem taken_of_readInitial {m : UInt32 × List Char} (hm : readNumber s = some m)
    (h : readInitial s = (n, r)) : Taken (Numeral n) s r := by
  rw [readInitial, hm, Option.getD_some] at h
  rw [h] at hm
  exact taken_of_readNumber hm

/-- Where a number is known to stand, one is listed. -/
theorem ne_nil_of_readNumbers {m : UInt32 × List Char} (hm : readNumber s = some m)
    {l : List UInt32} (h : readNumbers s = (l, r)) : l ≠ [] := by
  rw [readNumbers, readList, hm] at h
  rintro rfl
  cases (Prod.mk.inj h).1

theorem taken_of_readSymbol (h : readSymbol s = some (c, r)) : Taken (Letter c) s r := by
  cases s with
  | nil => cases h
  | cons d s =>
      rw [readSymbol] at h
      split at h
      · rename_i hd
        obtain ⟨rfl, rfl⟩ := Prod.mk.inj (Option.some.inj h)
        exact ⟨[d], ⟨hd, rfl⟩, rfl⟩
      · cases h

theorem taken_of_readGap (h : readGap s = some r) : Taken Gap s r := by
  cases s with
  | nil => cases h
  | cons c s =>
      rw [readGap] at h
      split at h
      · rename_i hc
        obtain rfl := Option.some.inj h
        obtain ⟨p, hp, heq⟩ := taken_skipBlanks s
        refine ⟨c :: p, ⟨List.cons_ne_nil c p, blanks_cons.2 ⟨hc, hp⟩⟩, ?_⟩
        rw [List.cons_append, ← heq]
      · cases h

theorem taken_of_readSeparator (h : readSeparator c s = some r) : Taken (Separator c) s r := by
  obtain ⟨p, hp, heq⟩ := taken_skipBlanks s
  rw [readSeparator] at h
  cases hskip : skipBlanks s with
  | nil =>
      rw [hskip] at h
      cases h
  | cons d t =>
      rw [hskip] at h heq
      dsimp only at h
      split at h
      · rename_i hd
        obtain rfl := Option.some.inj h
        obtain ⟨q, hq, heq'⟩ := taken_skipBlanks t
        refine ⟨p ++ c :: q, ⟨p, q, hp, hq, rfl⟩, ?_⟩
        rw [heq, hd, List.append_assoc, List.cons_append, ← heq']
      · cases h

theorem taken_of_readLabel (h : readLabel s = (x, r)) : Taken (Label x) s r := by
  rw [readLabel] at h
  cases hread : readSymbol s with
  | none =>
      rw [hread] at h
      obtain ⟨rfl, rfl⟩ := Prod.mk.inj h
      exact ⟨[], rfl, rfl⟩
  | some m =>
      obtain ⟨c, u⟩ := m
      rw [hread] at h
      obtain ⟨rfl, rfl⟩ := Prod.mk.inj h
      exact taken_of_readSymbol hread

/-- **What is read as a transition is one.** -/
theorem taken_of_readTransition (h : readTransition s = some (t, r)) : Taken (Arrow t) s r := by
  simp only [readTransition, Option.bind_eq_bind, Option.bind_eq_some_iff, Prod.exists] at h
  obtain ⟨source, s₁, hsource, s₂, hcomma, s₄, hcomma', target, s₅, htarget, hpure⟩ := h
  obtain ⟨x, s₃, hlabel⟩ : ∃ x s₃, readLabel s₂ = (x, s₃) := ⟨_, _, rfl⟩
  rw [hlabel] at hcomma' hpure
  obtain ⟨rfl, rfl⟩ := Prod.mk.inj (Option.some.inj hpure)
  obtain ⟨p, hp, rfl⟩ := taken_of_readNumber hsource
  obtain ⟨g, hg, rfl⟩ := taken_of_readSeparator hcomma
  obtain ⟨l, hl, rfl⟩ := taken_of_readLabel hlabel
  obtain ⟨g', hg', rfl⟩ := taken_of_readSeparator hcomma'
  obtain ⟨q, hq, rfl⟩ := taken_of_readNumber htarget
  refine ⟨_, ⟨p, g, l, g', q, hp, hg, hl, hg', hq, rfl⟩, ?_⟩
  simp only [List.append_assoc]

/-! ## Lists -/

section Lists

variable {α : Type} {readBetween : List Char → Option (List Char)}
  {readItem : List Char → Option (α × List Char)} {between : List Char → Prop}
  {item : α → List Char → Prop} {l : List α} {limit : Nat}
  (hbetween : ∀ {s r}, readBetween s = some r → Taken between s r)
  (hitem : ∀ {s a r}, readItem s = some (a, r) → Taken (item a) s r)

include hbetween hitem

/-- **Further items are taken one by one.** -/
theorem taken_of_readMore (h : readMore readBetween readItem limit s = (l, r)) :
    Taken (More between item l) s r := by
  induction limit generalizing s l with
  | zero =>
      obtain ⟨rfl, rfl⟩ := Prod.mk.inj h
      exact ⟨[], .nil, rfl⟩
  | succ limit ih =>
      rw [readMore] at h
      split at h
      · obtain ⟨rfl, rfl⟩ := Prod.mk.inj h
        exact ⟨[], .nil, rfl⟩
      · rename_i t hgap
        split at h
        · -- a separator without an item is left where it is
          obtain ⟨rfl, rfl⟩ := Prod.mk.inj h
          exact ⟨[], .nil, rfl⟩
        · rename_i a u hread
          obtain ⟨m, v, hmore⟩ : ∃ m v, readMore readBetween readItem limit u = (m, v) :=
            ⟨_, _, rfl⟩
          rw [hmore] at h
          obtain ⟨rfl, rfl⟩ := Prod.mk.inj h
          obtain ⟨g, hg, rfl⟩ := hbetween hgap
          obtain ⟨p, hp, rfl⟩ := hitem hread
          obtain ⟨q, hq, rfl⟩ := ih hmore
          refine ⟨g ++ (p ++ q), .cons hg hp hq, ?_⟩
          simp only [List.append_assoc]

theorem taken_of_readList (h : readList readBetween readItem s = (l, r)) :
    Taken (Items between item l) s r := by
  rw [readList] at h
  split at h
  · obtain ⟨rfl, rfl⟩ := Prod.mk.inj h
    exact ⟨[], .nil, rfl⟩
  · rename_i a u hread
    obtain ⟨m, v, hmore⟩ : ∃ m v, readMore readBetween readItem s.length u = (m, v) :=
      ⟨_, _, rfl⟩
    rw [hmore] at h
    obtain ⟨rfl, rfl⟩ := Prod.mk.inj h
    obtain ⟨p, hp, rfl⟩ := hitem hread
    obtain ⟨q, hq, rfl⟩ := taken_of_readMore hbetween hitem hmore
    exact ⟨p ++ q, .cons hp hq, (List.append_assoc p q v).symm⟩

end Lists

theorem taken_of_readTransitions {l : List (Edge UInt32)} (h : readTransitions s = (l, r)) :
    Taken (Arrows l) s r := by
  obtain ⟨l', u, hlist⟩ : ∃ l' u, readList (readSeparator ';') readTransition s = (l', u) :=
    ⟨_, _, rfl⟩
  rw [readTransitions, hlist] at h
  obtain ⟨rfl, rfl⟩ := Prod.mk.inj h
  obtain ⟨p, hp, rfl⟩ := taken_of_readList taken_of_readSeparator taken_of_readTransition hlist
  cases hsemicolon : readSeparator ';' u with
  | none => exact ⟨p, ⟨p, [], hp, Or.inl rfl, (List.append_nil p).symm⟩, rfl⟩
  | some v =>
      obtain ⟨q, hq, rfl⟩ := taken_of_readSeparator hsemicolon
      exact ⟨p ++ q, ⟨p, q, hp, Or.inr hq, rfl⟩, (List.append_assoc p q v).symm⟩

/-! ## Fields -/

section Fields

variable {α : Type} {read : List Char → α × List Char} {content : List Char → Prop} {a : α}
  {field : Field}

/-- A field is what its reader takes, with blanks around it. -/
theorem padded_of_wholeField (h : wholeField field read s = .ok a)
    (hread : ∀ {u}, read (skipBlanks s) = (a, u) → Taken content (skipBlanks s) u) :
    Padded content s := by
  obtain ⟨u, hu, hblanks⟩ := wholeField_eq_ok_iff.1 h
  obtain ⟨p, hp, heq⟩ := taken_skipBlanks s
  obtain ⟨q, hq, heq'⟩ := hread hu
  rw [heq'] at heq
  exact ⟨p, q, u, hp, hq, blanks_of_skipBlanks_eq_nil hblanks, heq⟩

end Fields

theorem padded_numbers {field : Field} {l : List UInt32}
    (h : wholeField field readNumbers s = .ok l) : Padded (Numbers l) s :=
  padded_of_wholeField h (taken_of_readList taken_of_readGap taken_of_readNumber)

/-- A field that has to begin with a number lists one. -/
theorem ne_nil_of_numberedField {field : Field} {l : List UInt32}
    (h : numberedField field readNumbers s = .ok l) : l ≠ [] := by
  obtain ⟨⟨m, hm⟩, hwhole⟩ := numberedField_eq_ok_iff.1 h
  obtain ⟨v, hv, -⟩ := wholeField_eq_ok_iff.1 hwhole
  exact ne_nil_of_readNumbers hm hv

theorem padded_numeral (h : numberedField .initial readInitial s = .ok n) :
    Padded (Numeral n) s := by
  obtain ⟨⟨m, hm⟩, hwhole⟩ := numberedField_eq_ok_iff.1 h
  exact padded_of_wholeField hwhole (taken_of_readInitial hm)

/-! ## Texts -/

variable {e : Encoding} {states alphabet transitions initial accepting : List Char}

theorem fields_of_ofFields (h : ofFields states alphabet transitions initial accepting = .ok e) :
    Fields e states alphabet transitions initial ∧ Padded (Numbers e.accepting) accepting := by
  obtain ⟨hstates, halphabet, htransitions, hinitial, haccepting⟩ := ofFields_eq_ok_iff.1 h
  refine ⟨⟨ne_nil_of_numberedField hstates, ?_, ?_, ?_, padded_numeral hinitial⟩,
    padded_numbers haccepting⟩
  · exact padded_numbers (numberedField_eq_ok_iff.1 hstates).2
  · exact padded_of_wholeField halphabet (taken_of_readList taken_of_readGap taken_of_readSymbol)
  · exact padded_of_wholeField htransitions taken_of_readTransitions

/-- **What is read is a text of what it is read as.** -/
theorem isTextOf_of_read (h : read s = .ok e) : IsTextOf s e := by
  have hjoin := Text.join_pieces '/' s
  rw [read] at h
  split at h
  · rename_i states alphabet transitions initial hpieces
    rw [hpieces] at hjoin
    rw [← hjoin]
    -- nothing is read as the missing field
    obtain ⟨-, -, -, -, haccepting⟩ := ofFields_eq_ok_iff.1 h
    exact .four (fields_of_ofFields h).1 (Except.ok.inj haccepting).symm
  · rename_i states alphabet transitions initial accepting hpieces
    rw [hpieces] at hjoin
    rw [← hjoin]
    exact .five (fields_of_ofFields h).1 (fields_of_ofFields h).2
  · cases h

/-- Runs of digits are numerals up to the largest 32-bit number, however many zeros come first. -/
theorem exists_numeral_iff :
    (∃ n, Numeral n s) ↔
      s ≠ [] ∧ (∀ c ∈ s, c.isDigit = true) ∧ Nat.ofDigitChars 10 s 0 ≤ 4294967295 := by
  constructor
  · rintro ⟨n, hne, hdigit, hvalue⟩
    have hlt := n.toNat_lt
    exact ⟨hne, hdigit, by omega⟩
  · rintro ⟨hne, hdigit, hvalue⟩
    refine ⟨UInt32.ofNat (Nat.ofDigitChars 10 s 0), hne, hdigit, ?_⟩
    exact (UInt32.toNat_ofNat_of_lt' (Nat.lt_succ_of_le hvalue)).symm

/-- **The reader accepts exactly the texts of the grammar, with exactly their meaning.**  The
numerals of the grammar are the runs of digits for numbers below `2 ^ 32`. -/
theorem read_eq_ok_iff_isTextOf :
    (∀ s, (∃ n, Numeral n s) ↔
        s ≠ [] ∧ (∀ c ∈ s, c.isDigit = true) ∧ Nat.ofDigitChars 10 s 0 ≤ 4294967295) ∧
      ∀ text e, read text = .ok e ↔ IsTextOf text e :=
  ⟨fun _ => exists_numeral_iff, fun _ _ => ⟨isTextOf_of_read, read_of_isTextOf⟩⟩

end Encoding
end Determinization
