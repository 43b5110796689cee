import Determinization.Proofs.Encoding.Derivation
import Determinization.Proofs.Readability.Messages

/-!
# Where a malformed text goes wrong

A text that is no encoding is refused with an error that says where reading stopped.  Here is shown
that it says the right thing, for every such text (`read_reports`).

* A text that has not four or five pieces between slashes is refused for their number.
* Otherwise some piece cannot stand in its field, and the error is about the first of these.  It
  shows an end of the piece.
* In the two fields that have to begin with a number, reading stops at once if there is none, or if
  the number is too large.
* In all other cases the error shows what is left of the piece.  Something is left, it does not
  begin with a blank, and what comes before it could have been the whole field.

The message says all this: the number of pieces, or the name of the field, what is left of its piece
between quotes, and `Digit` or `Eof`; and it can be understood in one way only.

The last point is where the readers could do harm.  A separator with nothing behind it, half a
transition or a number that is too large must not be taken in part, for then what was taken would
not be in the language of the field.  That it is follows for all fields at once from the rule that
each reader has for what it takes (`Taken`).
-/

namespace Determinization

/-- The fields in the order in which they are read. -/
def Field.inOrder : List Field := [.states, .alphabet, .transitions, .initial, .accepting]

namespace Encoding

open Grammar

variable {α : Type} {field : Field} {s piece rest : List Char} {e : Error} {text : List Char}
  {read : List Char → α × List Char} {content : List Char → Prop} {l : List (Field × List Char)}

/-- The texts that can stand in a field. -/
def Grammar.InField : Field → List Char → Prop
  | .states, s => Padded (fun q => ∃ l, l ≠ [] ∧ Numbers l q) s
  | .alphabet, s => Padded (fun q => ∃ l, Letters l q) s
  | .transitions, s => Padded (fun q => ∃ l, Arrows l q) s
  | .initial, s => Padded (fun q => ∃ n, Numeral n q) s
  | .accepting, s => Padded (fun q => ∃ l, Numbers l q) s

/-- After its leading blanks the text begins with no digit, or all the digits that it begins with
make a number that is too large. -/
def LacksNumber (s : List Char) : Prop :=
  let digits := (s.dropWhile Text.isSkipped).takeWhile Char.isDigit
  digits = [] ∨ 4294967295 < Nat.ofDigitChars 10 digits 0

/-- The error shows where reading of the field stopped and what was expected there. -/
structure PointsAt (field : Field) (piece rest : List Char) (expected : Expectation) : Prop where
  malformed : ¬ InField field piece
  suffix : rest <:+ piece
  number_iff : expected = .number ↔ (field = .states ∨ field = .initial) ∧ LacksNumber piece
  leftover : expected = .nothing →
    Solid rest ∧ ∃ taken, piece = taken ++ rest ∧ InField field taken

/-- The error is about the piece in the field, and shows where reading of it stopped. -/
def Blames (field : Field) (piece : List Char) (e : Error) : Prop :=
  ∃ rest expected, e = .badField field piece rest expected ∧ PointsAt field piece rest expected

/-- The error is about the first field that is malformed. -/
inductive FirstBad : List (Field × List Char) → Error → Prop where
  | here {field : Field} {piece : List Char} {l : List (Field × List Char)} {e : Error}
      (blamed : Blames field piece e) : FirstBad ((field, piece) :: l) e
  | later {field : Field} {piece : List Char} {l : List (Field × List Char)} {e : Error}
      (wellFormed : InField field piece) (bad : FirstBad l e) : FirstBad ((field, piece) :: l) e

/-! ## Fields that are read -/

theorem Grammar.Padded.mono {content' : List Char → Prop} (h : Padded content s)
    (himp : ∀ {q}, content q → content' q) : Padded content' s := by
  obtain ⟨p, q, r, hp, hq, hr, rfl⟩ := h
  exact ⟨p, q, r, hp, himp hq, hr, rfl⟩

theorem Grammar.Padded.exists_of {β : Type} {rule : β → List Char → Prop}
    (h : Padded (fun q => ∃ b, rule b q) s) : ∃ b, Padded (rule b) s := by
  obtain ⟨p, q, r, hp, ⟨b, hq⟩, hr, rfl⟩ := h
  exact ⟨b, p, q, r, hp, hq, hr, rfl⟩

theorem inField_states_iff :
    InField .states s ↔ ∃ l, numberedField .states readNumbers s = .ok l := by
  constructor
  · rintro ⟨p, q, r, hp, ⟨l, hl, hq⟩, hr, rfl⟩
    exact ⟨l, numberedField_numbers hl ⟨p, q, r, hp, hq, hr, rfl⟩⟩
  · rintro ⟨l, h⟩
    have hpadded := padded_numbers (numberedField_eq_ok_iff.1 h).2
    exact hpadded.mono fun hq => ⟨l, ne_nil_of_numberedField h, hq⟩

theorem inField_alphabet_iff :
    InField .alphabet s ↔ ∃ l, wholeField .alphabet readSymbols s = .ok l := by
  constructor
  · intro h
    obtain ⟨l, hl⟩ := Padded.exists_of h
    exact ⟨l, wholeField_letters hl⟩
  · rintro ⟨l, h⟩
    have hpadded : Padded (Letters l) s :=
      padded_of_wholeField h (taken_of_readList taken_of_readGap taken_of_readSymbol)
    exact hpadded.mono fun hq => ⟨l, hq⟩

theorem inField_transitions_iff :
    InField .transitions s ↔ ∃ l, wholeField .transitions readTransitions s = .ok l := by
  constructor
  · intro h
    obtain ⟨l, hl⟩ := Padded.exists_of h
    exact ⟨l, wholeField_arrows hl⟩
  · rintro ⟨l, h⟩
    exact (padded_of_wholeField h taken_of_readTransitions).mono fun hq => ⟨l, hq⟩

theorem inField_initial_iff :
    InField .initial s ↔ ∃ n, numberedField .initial readInitial s = .ok n := by
  constructor
  · intro h
    obtain ⟨n, hn⟩ := Padded.exists_of h
    exact ⟨n, numberedField_numeral hn⟩
  · rintro ⟨n, h⟩
    exact (padded_numeral h).mono fun hq => ⟨n, hq⟩

theorem inField_accepting_iff :
    InField .accepting s ↔ ∃ l, wholeField .accepting readNumbers s = .ok l := by
  constructor
  · intro h
    obtain ⟨l, hl⟩ := Padded.exists_of h
    exact ⟨l, wholeField_numbers .accepting hl⟩
  · rintro ⟨l, h⟩
    exact (padded_numbers h).mono fun hq => ⟨l, hq⟩

/-! ## Fields that are not read -/

theorem lacksNumber_iff : LacksNumber s ↔ readNumber (skipBlanks s) = none := by
  have hlimit : ∀ n, numberLimit ≤ n ↔ 4294967295 < n := fun n => Iff.rfl
  rw [LacksNumber, readNumber, skipBlanks]
  simp only [Bool.or_eq_true, List.isEmpty_iff, decide_eq_true_eq, hlimit]
  split
  · rename_i h
    exact iff_of_true h rfl
  · rename_i h
    exact iff_of_false h (Option.some_ne_none _)

/-- What is left after blanks does not begin with one. -/
theorem solid_skipBlanks (h : skipBlanks s ≠ []) : Solid (skipBlanks s) := by
  have hnot := List.head?_dropWhile_not Text.isSkipped s
  obtain ⟨c, r, hskip⟩ := List.exists_cons_of_ne_nil h
  have hdrop : s.dropWhile Text.isSkipped = c :: r := hskip
  rw [hdrop] at hnot
  exact ⟨c, r, hskip, hnot⟩

/-- **What is left of a field stands behind a text that its reader takes whole.** -/
theorem leftover_of_wholeField (h : wholeField field read s = .error e)
    (hread : ∀ {a u}, read (skipBlanks s) = (a, u) → Taken content (skipBlanks s) u) :
    ∃ rest, e = .badField field s rest .nothing ∧ Solid rest ∧
      ∃ taken, s = taken ++ rest ∧ Padded content taken := by
  obtain ⟨a, u, hu⟩ : ∃ a u, read (skipBlanks s) = (a, u) := ⟨_, _, rfl⟩
  rw [wholeField, hu] at h
  -- the blanks before the content, the content, and the blanks after it
  obtain ⟨p, hp, heq⟩ := taken_skipBlanks s
  obtain ⟨q, hq, hcontent⟩ := hread hu
  obtain ⟨r, hr, hafter⟩ := taken_skipBlanks u
  have hsplit : s = (p ++ (q ++ r)) ++ skipBlanks u := by
    rw [List.append_assoc, List.append_assoc, ← hafter, ← hcontent, ← heq]
  cases hskip : skipBlanks u with
  | nil =>
      simp only [hskip] at h
      cases h
  | cons c v =>
      simp only [hskip] at h
      have hsolid : Solid (skipBlanks u) := solid_skipBlanks (hskip ▸ List.cons_ne_nil c v)
      rw [hskip] at hsplit hsolid
      exact ⟨c :: v, (Except.error.inj h).symm, hsolid, _, hsplit, p, q, r, hp, hq, hr, rfl⟩

theorem blames_of_wholeField (h : wholeField field read s = .error e)
    (hread : ∀ {a u}, read (skipBlanks s) = (a, u) → Taken content (skipBlanks s) u)
    (hcontent : ∀ {p}, Padded content p → InField field p) (hmalformed : ¬ InField field s)
    (hnumber : ¬ ((field = .states ∨ field = .initial) ∧ LacksNumber s)) :
    Blames field s e := by
  obtain ⟨rest, rfl, hsolid, taken, hsplit, htaken⟩ := leftover_of_wholeField h hread
  exact ⟨rest, .nothing, rfl, hmalformed, ⟨taken, hsplit.symm⟩,
    iff_of_false Expectation.noConfusion hnumber, fun _ => ⟨hsolid, taken, hsplit, hcontent htaken⟩⟩

theorem blames_of_numberedField (hfield : field = .states ∨ field = .initial)
    (h : numberedField field read s = .error e)
    (hread : ∀ {m}, readNumber (skipBlanks s) = some m →
      ∀ {a u}, read (skipBlanks s) = (a, u) → Taken content (skipBlanks s) u)
    (hcontent : ∀ {p}, Padded content p → InField field p) (hmalformed : ¬ InField field s) :
    Blames field s e := by
  rw [numberedField] at h
  cases hnumber : readNumber (skipBlanks s) with
  | none =>
      rw [hnumber] at h
      have hlacks : LacksNumber s := lacksNumber_iff.2 hnumber
      exact ⟨skipBlanks s, .number, (Except.error.inj h).symm, hmalformed,
        List.dropWhile_suffix Text.isSkipped, iff_of_true rfl ⟨hfield, hlacks⟩,
        Expectation.noConfusion⟩
  | some m =>
      rw [hnumber] at h
      refine blames_of_wholeField h (hread hnumber) hcontent hmalformed ?_
      rintro ⟨-, hlacks⟩
      rw [lacksNumber_iff, hnumber] at hlacks
      cases hlacks

theorem taken_numbers_of_readNumber {m : UInt32 × List Char} (hm : readNumber s = some m)
    {a : List UInt32} {u : List Char} (h : readNumbers s = (a, u)) :
    Taken (fun q => ∃ l, l ≠ [] ∧ Numbers l q) s u := by
  obtain ⟨p, hp, hsplit⟩ := taken_of_readList taken_of_readGap taken_of_readNumber h
  exact ⟨p, ⟨a, ne_nil_of_readNumbers hm h, hp⟩, hsplit⟩

theorem Taken.exists_rule {β : Type} {rule : β → List Char → Prop} {b : β} {u : List Char}
    (h : Taken (rule b) s u) : Taken (fun q => ∃ b, rule b q) s u := by
  obtain ⟨p, hp, hsplit⟩ := h
  exact ⟨p, ⟨b, hp⟩, hsplit⟩

/-! ## The fields one after the other -/

theorem not_exists_ok {x : Except Error α} (h : x = .error e) : ¬ ∃ a, x = .ok a := by
  rintro ⟨a, ha⟩
  rw [ha] at h
  cases h

theorem blames_states (h : numberedField .states readNumbers s = .error e) :
    Blames .states s e :=
  blames_of_numberedField (.inl rfl) h taken_numbers_of_readNumber id
    (inField_states_iff.not.2 (not_exists_ok h))

theorem blames_alphabet (h : wholeField .alphabet readSymbols s = .error e) :
    Blames .alphabet s e :=
  blames_of_wholeField h
    (fun hu => (taken_of_readList taken_of_readGap taken_of_readSymbol hu).exists_rule) id
    (inField_alphabet_iff.not.2 (not_exists_ok h)) fun hn => absurd hn.1 (by decide)

theorem blames_transitions (h : wholeField .transitions readTransitions s = .error e) :
    Blames .transitions s e :=
  blames_of_wholeField h (fun hu => (taken_of_readTransitions hu).exists_rule) id
    (inField_transitions_iff.not.2 (not_exists_ok h)) fun hn => absurd hn.1 (by decide)

theorem blames_initial (h : numberedField .initial readInitial s = .error e) :
    Blames .initial s e :=
  blames_of_numberedField (.inr rfl) h (fun hm _ _ hu => (taken_of_readInitial hm hu).exists_rule)
    id (inField_initial_iff.not.2 (not_exists_ok h))

theorem blames_accepting (h : wholeField .accepting readNumbers s = .error e) :
    Blames .accepting s e :=
  blames_of_wholeField h
    (fun hu => (taken_of_readList taken_of_readGap taken_of_readNumber hu).exists_rule) id
    (inField_accepting_iff.not.2 (not_exists_ok h)) fun hn => absurd hn.1 (by decide)

theorem bind_eq_error_iff {β : Type} {x : Except Error α} {f : α → Except Error β} :
    (x >>= f) = .error e ↔ x = .error e ∨ ∃ a, x = .ok a ∧ f a = .error e := by
  cases x with
  | error e' =>
      constructor
      · exact fun h => .inl (congrArg Except.error (Except.error.inj h))
      · rintro (h | ⟨a, ⟨⟩, -⟩)
        exact congrArg Except.error (Except.error.inj h)
  | ok a =>
      constructor
      · exact fun h => .inr ⟨a, rfl, h⟩
      · rintro (⟨⟨⟩⟩ | ⟨_, ⟨⟩, h⟩)
        exact h

/-- **The error is about the first field that is malformed.** -/
theorem firstBad_of_ofFields {states alphabet transitions initial accepting : List Char}
    (h : ofFields states alphabet transitions initial accepting = .error e) :
    FirstBad [(.states, states), (.alphabet, alphabet), (.transitions, transitions),
      (.initial, initial), (.accepting, accepting)] e := by
  simp only [ofFields, bind_eq_error_iff] at h
  rcases h with h | ⟨_, hstates, h⟩
  · exact .here (blames_states h)
  refine .later (inField_states_iff.2 ⟨_, hstates⟩) ?_
  rcases h with h | ⟨_, halphabet, h⟩
  · exact .here (blames_alphabet h)
  refine .later (inField_alphabet_iff.2 ⟨_, halphabet⟩) ?_
  rcases h with h | ⟨_, htransitions, h⟩
  · exact .here (blames_transitions h)
  refine .later (inField_transitions_iff.2 ⟨_, htransitions⟩) ?_
  rcases h with h | ⟨_, hinitial, h⟩
  · exact .here (blames_initial h)
  refine .later (inField_initial_iff.2 ⟨_, hinitial⟩) ?_
  rcases h with h | ⟨_, -, ⟨⟩⟩
  exact .here (blames_accepting h)

namespace FirstBad

/-- A field that is well-formed is not the one that the error is about. -/
theorem of_append (h : FirstBad (l ++ [(field, piece)]) e) (hfield : InField field piece) :
    FirstBad l e := by
  induction l with
  | nil =>
      cases h with
      | here blamed =>
          obtain ⟨_, _, -, hpoints⟩ := blamed
          exact absurd hfield hpoints.malformed
      | later _ bad => cases bad
  | cons p l ih =>
      cases h with
      | here blamed => exact .here blamed
      | later wellFormed bad => exact .later wellFormed (ih bad)

theorem exists_split (h : FirstBad l e) :
    ∃ before field piece after, l = before ++ (field, piece) :: after ∧
      (∀ p ∈ before, InField p.1 p.2) ∧ Blames field piece e := by
  induction h with
  | here blamed => exact ⟨[], _, _, _, rfl, nofun, blamed⟩
  | @later field piece l e wellFormed bad ih =>
      obtain ⟨before, field', piece', after, rfl, hbefore, hblamed⟩ := ih
      exact ⟨(field, piece) :: before, field', piece', after, rfl,
        List.forall_mem_cons.2 ⟨wellFormed, hbefore⟩, hblamed⟩

end FirstBad

/-- A missing field is as good as an empty one. -/
theorem inField_accepting_nil : InField .accepting [] :=
  inField_accepting_iff.2 ⟨[], rfl⟩

theorem read_eq_fieldCount (hfour : (text.splitOn '/').length ≠ 4)
    (hfive : (text.splitOn '/').length ≠ 5) :
    Encoding.read text = .error (.fieldCount (text.splitOn '/').length) := by
  rw [← Text.pieces_eq_splitOn] at *
  unfold Encoding.read
  split
  · rename_i hpieces
    rw [hpieces] at hfour
    exact absurd rfl hfour
  · rename_i hpieces
    rw [hpieces] at hfive
    exact absurd rfl hfive
  · rfl

theorem firstBad_of_read
    (hcount : (text.splitOn '/').length = 4 ∨ (text.splitOn '/').length = 5)
    (h : Encoding.read text = .error e) : FirstBad (Field.inOrder.zip (text.splitOn '/')) e := by
  rw [← Text.pieces_eq_splitOn] at *
  rw [Encoding.read] at h
  split at h
  · rename_i states alphabet transitions initial hpieces
    rw [hpieces]
    exact (firstBad_of_ofFields h).of_append inField_accepting_nil
  · rename_i states alphabet transitions initial accepting hpieces
    rw [hpieces]
    exact firstBad_of_ofFields h
  · rename_i hfour hfive
    rcases hcount with hlength | hlength
    · obtain ⟨_, _, _, _, hpieces⟩ := List.length_eq_four.1 hlength
      exact absurd hpieces (hfour _ _ _ _)
    · obtain ⟨_, t, ht⟩ := List.exists_of_length_succ _ hlength
      rw [ht, List.length_cons, Nat.succ_inj, List.length_eq_four] at hlength
      obtain ⟨_, _, _, _, rfl⟩ := hlength
      exact absurd ht (hfive _ _ _ _ _)

/-- **An error points at the first field that is malformed and at the right place in it,** and its
message says so.  The number of pieces is looked at before the pieces are. -/
theorem read_reports (text : List Char) :
    ((text.splitOn '/').length ≠ 4 → (text.splitOn '/').length ≠ 5 →
      Encoding.read text = .error (.fieldCount (text.splitOn '/').length) ∧
        (Error.fieldCount (text.splitOn '/').length).message =
          "malformed encoding: expected 5 fields separated by '/', found ".toList ++
            Nat.toDigits 10 (text.splitOn '/').length) ∧
    ((text.splitOn '/').length = 4 ∨ (text.splitOn '/').length = 5 → (∀ e, ¬ IsTextOf text e) →
      ∃ before field piece after rest expected,
        Field.inOrder.zip (text.splitOn '/') = before ++ (field, piece) :: after ∧
        (∀ p ∈ before, InField p.1 p.2) ∧ PointsAt field piece rest expected ∧
        Encoding.read text = .error (.badField field piece rest expected) ∧
        Error.SaysMalformed (Error.badField field piece rest expected).message field piece rest
          expected ∧
        ∀ field' piece' rest' expected',
          Error.SaysMalformed (Error.badField field piece rest expected).message field' piece' rest'
            expected' → field' = field ∧ rest' = rest ∧ expected' = expected) := by
  refine ⟨fun hfour hfive => ⟨read_eq_fieldCount hfour hfive, Error.message_fieldCount _⟩,
    fun hcount hout => ?_⟩
  cases hread : Encoding.read text with
  | ok e => exact absurd (isTextOf_of_read hread) (hout e)
  | error e =>
      obtain ⟨before, field, piece, after, hsplit, hbefore, rest, expected, rfl, hpoints⟩ :=
        (firstBad_of_read hcount hread).exists_split
      have hsays := Error.saysMalformed_message field piece rest expected
      refine ⟨before, field, piece, after, rest, expected, hsplit, hbefore, hpoints, rfl, hsays,
        fun field' piece' rest' expected' hsays' => ?_⟩
      obtain ⟨hfield, -, hrest, hexpected⟩ := hsays'.unique hsays
      exact ⟨hfield, hrest, hexpected⟩

/-- Half a transition, behind a semicolon that could have been the last; more is wrong after it. -/
def halfArrow : List Char := "0 1/a b/ 0,a,1 ; 1,b /9999999999/x".toList

/-- The semicolon is taken, and of what follows it nothing. -/
theorem read_reports_halfArrow :
    (∀ e, ¬ IsTextOf halfArrow e) ∧
      Encoding.read halfArrow =
        .error (.badField .transitions " 0,a,1 ; 1,b ".toList "1,b ".toList .nothing) ∧
      InField .transitions " 0,a,1 ; ".toList ∧
      Error.SaysMalformed ("malformed encoding: invalid transitions field \x600,a,1 ; 1,b\x60: " ++
          "Parsing Error: Error \x7b input: \"1,b \", code: Eof \x7d").toList
        .transitions " 0,a,1 ; 1,b ".toList "1,b ".toList .nothing ∧
      Encoding.read "0/ /9999999999".toList = .error (.fieldCount 3) := by
  have hread : Encoding.read halfArrow =
      .error (.badField .transitions " 0,a,1 ; 1,b ".toList "1,b ".toList .nothing) := by
    decide +kernel
  have hout : ∀ e, ¬ IsTextOf halfArrow e := by
    intro e he
    rw [read_of_isTextOf he] at hread
    cases hread
  obtain ⟨before, field, piece, after, rest, expected, -, -, hpoints, herror, hsays, -⟩ :=
    (read_reports halfArrow).2 (.inr (by decide +kernel)) hout
  rw [hread] at herror
  cases herror
  obtain ⟨-, taken, hsplit, htaken⟩ := hpoints.leftover rfl
  have hprefix : taken = " 0,a,1 ; ".toList := List.append_cancel_right hsplit.symm
  have hmessage : (Error.badField .transitions " 0,a,1 ; 1,b ".toList "1,b ".toList
      .nothing).message =
      ("malformed encoding: invalid transitions field \x600,a,1 ; 1,b\x60: " ++
        "Parsing Error: Error \x7b input: \"1,b \", code: Eof \x7d").toList := by
    decide +kernel
  rw [hmessage] at hsays
  refine ⟨hout, hread, hprefix ▸ htaken, hsays, ?_⟩
  exact ((read_reports _).1 (by decide +kernel) (by decide +kernel)).1

end Encoding
end Determinization
