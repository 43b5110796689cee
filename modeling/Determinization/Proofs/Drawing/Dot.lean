import Determinization.Text.Blank

/-!
# Graph descriptions

The part of the DOT language that drawings use, as a reader of it sees it.  It is said here without
regard to how drawings are written.

A description consists of tokens.  A word is a run of letters, digits and underscores.  A quoted
text ends at the first double quote that is not preceded by a backslash, and everything before that
is its content.  The signs are braces, brackets, the comma, the semicolon, the equals sign and the
arrow.

Between the braces of a directed graph there are statements: an assignment, attributes for all nodes
or edges to come, a node, or an edge.  A semicolon may stand after a statement.  It may not stand
anywhere else: there is no empty statement.

What a text begins with can be read before the rest is known.  This goes for characters
(`Scans.append`, `Scans.exists_of_tokens?`) and for statements (`Reads.append`).
-/

namespace Determinization
namespace Dot

/-! ## Tokens -/

/-- A token of a description. -/
inductive Token where
  | word (text : List Char)
  | quoted (text : List Char)
  | openingBrace
  | closingBrace
  | openingBracket
  | closingBracket
  | comma
  | semicolon
  | equals
  | arrow
  deriving DecidableEq

/-- The sign that a character is. -/
def sign? : Char → Option Token
  | '\x7b' => some .openingBrace
  | '\x7d' => some .closingBrace
  | '[' => some .openingBracket
  | ']' => some .closingBracket
  | ',' => some .comma
  | ';' => some .semicolon
  | '=' => some .equals
  | _ => none

/-- Can the character stand in a word? -/
def isWordPart (c : Char) : Bool := c.isAlphanum || c == '_' || decide (0x80 ≤ c.toNat)

/-- What a reader is in the middle of.  Words and quoted texts are kept as far as they were read,
last character first. -/
inductive Mode where
  | between
  | word (text : List Char)
  | quoted (text : List Char)
  | dash
  deriving DecidableEq

/-- A reader, with the tokens that it has read, last token first. -/
structure Scanner where
  mode : Mode
  tokens : List Token
  deriving DecidableEq

/-- Read a character that begins something new. -/
def start (tokens : List Token) (c : Char) : Option Scanner :=
  if Text.isSkipped c then some ⟨.between, tokens⟩
  else if c = '"' then some ⟨.quoted [], tokens⟩
  else if c = '-' then some ⟨.dash, tokens⟩
  else if isWordPart c then some ⟨.word [c], tokens⟩
  else (sign? c).map fun t => ⟨.between, t :: tokens⟩

/-- Read a character. -/
def step : Scanner → Char → Option Scanner
  | ⟨.between, tokens⟩, c => start tokens c
  | ⟨.word text, tokens⟩, c =>
      if isWordPart c then some ⟨.word (c :: text), tokens⟩
      else start (.word text.reverse :: tokens) c
  | ⟨.quoted text, tokens⟩, c =>
      if c = '"' ∧ text.head? ≠ some '\\' then some ⟨.between, .quoted text.reverse :: tokens⟩
      else some ⟨.quoted (c :: text), tokens⟩
  | ⟨.dash, tokens⟩, c => if c = '>' then some ⟨.between, .arrow :: tokens⟩ else none

/-- The tokens of a text that does not end within a token. -/
def tokens? (s : List Char) : Option (List Token) :=
  match s.foldlM step ⟨.between, []⟩ with
  | some ⟨.between, tokens⟩ => some tokens.reverse
  | _ => none

/-! ## Statements -/

/-- Names of attributes with their values. -/
abbrev Attributes := List (List Char × List Char)

/-- A statement of a description. -/
inductive Statement where
  | setting (name value : List Char)
  /-- Attributes for all nodes or all edges that come after it. -/
  | defaults (kind : List Char) (attributes : Attributes)
  | node (name : List Char) (attributes : Attributes)
  | edge (source target : List Char) (attributes : Attributes)
  deriving DecidableEq

/-- The name that a token is. -/
def Token.name? : Token → Option (List Char)
  | .word text => some text
  | .quoted text => some text
  | _ => none

/-- Does the token say that attributes are for all nodes or for all edges? -/
def Token.isKind (t : Token) : Bool := t == .word "node".toList || t == .word "edge".toList

/-- The attributes up to the closing bracket, and what follows it. -/
def attributes? : List Token → Option (Attributes × List Token)
  | .closingBracket :: rest => some ([], rest)
  | name :: .equals :: value :: .comma :: rest => do
      let name ← name.name?
      let value ← value.name?
      let (more, rest) ← attributes? rest
      return ((name, value) :: more, rest)
  | name :: .equals :: value :: rest => do
      let name ← name.name?
      let value ← value.name?
      let (more, rest) ← attributes? rest
      return ((name, value) :: more, rest)
  | _ => none

/-- The attributes in brackets, if there are any, and what follows them. -/
def optionalAttributes? : List Token → Option (Attributes × List Token)
  | .openingBracket :: rest => attributes? rest
  | rest => some ([], rest)

/-- The first statement and what follows it. -/
def statement? : List Token → Option (Statement × List Token)
  | name :: .equals :: value :: rest => do
      return (.setting (← name.name?) (← value.name?), rest)
  | source :: .arrow :: target :: rest => do
      let (attributes, rest) ← optionalAttributes? rest
      return (.edge (← source.name?) (← target.name?) attributes, rest)
  | first :: rest => do
      let name ← first.name?
      let (attributes, rest) ← optionalAttributes? rest
      return (if first.isKind then .defaults name attributes else .node name attributes, rest)
  | [] => none

/-- Tokens without a semicolon at their beginning. -/
def skipSemicolon : List Token → List Token
  | .semicolon :: rest => rest
  | rest => rest

/-- The tokens are these statements and a closing brace. -/
inductive Statements : List Token → List Statement → Prop where
  | nil : Statements [.closingBrace] []
  | cons {tokens rest : List Token} {s : Statement} {l : List Statement}
      (first : statement? tokens = some (s, rest)) (more : Statements (skipSemicolon rest) l) :
      Statements tokens (s :: l)

/-- **The text describes a directed graph by these statements.** -/
def Describes (text : List Char) (l : List Statement) : Prop :=
  ∃ name tokens,
    tokens? text = some (.word "digraph".toList :: .word name :: .openingBrace :: tokens) ∧
      Statements tokens l

/-- The name and the label of a node that a statement gives a label. -/
def Statement.labelledNode? : Statement → Option (List Char × List Char)
  | .node name attributes => (attributes.lookup "label".toList).map fun label => (name, label)
  | _ => none

/-- The ends and the label of an edge with a label. -/
def Statement.labelledEdge? : Statement → Option (List Char × List Char × List Char)
  | .edge source target attributes =>
      (attributes.lookup "label".toList).map fun label => (source, target, label)
  | _ => none

/-! ## Scanning -/

/-- The scanner as it is if these tokens were read before. -/
def Scanner.onto (base : List Token) (q : Scanner) : Scanner := ⟨q.mode, q.tokens ++ base⟩

theorem start_onto (base tokens : List Token) (c : Char) :
    start (tokens ++ base) c = (start tokens c).map (Scanner.onto base) := by
  unfold start
  split
  · rfl
  split
  · rfl
  split
  · rfl
  split
  · rfl
  · rw [Option.map_map]
    rfl

theorem step_onto (base : List Token) (q : Scanner) (c : Char) :
    step (q.onto base) c = (step q c).map (Scanner.onto base) := by
  obtain ⟨mode, tokens⟩ := q
  cases mode with
  | between => exact start_onto base tokens c
  | word text =>
      simp only [Scanner.onto, step]
      split
      · rfl
      · exact start_onto base (.word text.reverse :: tokens) c
  | quoted text =>
      simp only [Scanner.onto, step]
      split <;> rfl
  | dash =>
      simp only [Scanner.onto, step]
      split <;> rfl

/-- What was read before makes no difference. -/
theorem foldlM_onto (base : List Token) (s : List Char) (q : Scanner) :
    s.foldlM step (q.onto base) = (s.foldlM step q).map (Scanner.onto base) := by
  induction s generalizing q with
  | nil => rfl
  | cons c s ih =>
      rw [List.foldlM_cons, List.foldlM_cons, step_onto]
      cases step q c with
      | none => rfl
      | some r => exact ih r

/-- Between tokens, the text is read as these tokens. -/
def Scans (s : List Char) (ts : List Token) : Prop :=
  s.foldlM step ⟨.between, []⟩ = some ⟨.between, ts.reverse⟩

instance (s : List Char) (ts : List Token) : Decidable (Scans s ts) :=
  inferInstanceAs (Decidable (_ = _))

/-- The text ends a word that stands before it. -/
def EndsWord (s : List Char) : Prop := ∃ c t, s = c :: t ∧ isWordPart c = false

/-- No character of the text is a double quote or a backslash. -/
def Plain (s : List Char) : Prop := ∀ c ∈ s, c ≠ '"' ∧ c ≠ '\\'

instance (s : List Char) : Decidable (Plain s) :=
  List.decidableBAll (fun c => c ≠ '"' ∧ c ≠ '\\') s

section Words

variable {w text : List Char} {tokens : List Token}

/-- The characters of a word are read as parts of it. -/
theorem foldlM_word (hw : ∀ c ∈ w, isWordPart c = true) :
    w.foldlM step ⟨.word text, tokens⟩ = some ⟨.word (w.reverse ++ text), tokens⟩ := by
  induction w generalizing text with
  | nil => rfl
  | cons c w ih =>
      have hc := hw c List.mem_cons_self
      rw [List.foldlM_cons]
      simp only [step, hc, if_true, Option.bind_eq_bind, Option.bind_some]
      rw [ih fun d hd => hw d (List.mem_cons_of_mem _ hd), List.reverse_cons, List.append_assoc]
      rfl

theorem start_of_isWordPart {c : Char} (hc : isWordPart c = true) (tokens : List Token) :
    start tokens c = some ⟨.word [c], tokens⟩ := by
  have hne : ∀ d, isWordPart d = false → c ≠ d := by
    rintro d hd rfl
    rw [hc] at hd
    cases hd
  have hskipped : Text.isSkipped c = false := by
    simp [Text.isSkipped, hne ' ' rfl, hne '\t' rfl, hne '\r' rfl, hne '\n' rfl]
  simp [start, hskipped, hne '"' rfl, hne '-' rfl, hc]

/-- The characters of a plain text are read as parts of the quoted text. -/
theorem foldlM_quoted {s : List Char} (hs : Plain s) :
    s.foldlM step ⟨.quoted text, tokens⟩ = some ⟨.quoted (s.reverse ++ text), tokens⟩ := by
  induction s generalizing text with
  | nil => rfl
  | cons c s ih =>
      have hc := (hs c List.mem_cons_self).1
      rw [List.foldlM_cons]
      simp only [step, hc, false_and, if_false, Option.bind_eq_bind, Option.bind_some]
      rw [ih fun d hd => hs d (List.mem_cons_of_mem _ hd), List.reverse_cons, List.append_assoc]
      rfl

end Words

namespace Scans

variable {s s' w : List Char} {ts ts' : List Token}

theorem foldlM_eq (h : Scans s ts) (tokens : List Token) :
    s.foldlM step ⟨.between, tokens⟩ = some ⟨.between, ts.reverse ++ tokens⟩ := by
  have honto := foldlM_onto tokens s ⟨.between, []⟩
  rw [h] at honto
  exact honto

theorem append (h : Scans s ts) (h' : Scans s' ts') : Scans (s ++ s') (ts ++ ts') := by
  rw [Scans, List.foldlM_append, h]
  simp only [Option.bind_eq_bind, Option.bind_some]
  rw [h'.foldlM_eq, List.reverse_append]

theorem flatMap {α : Type} {write : α → List Char} {mean : α → List Token} {l : List α}
    (h : ∀ a ∈ l, Scans (write a) (mean a)) : Scans (l.flatMap write) (l.flatMap mean) := by
  induction l with
  | nil => rfl
  | cons a l ih =>
      rw [List.flatMap_cons, List.flatMap_cons]
      exact (h a List.mem_cons_self).append (ih fun b hb => h b (List.mem_cons_of_mem _ hb))

theorem tokens?_eq (h : Scans s ts) : tokens? s = some ts := by
  rw [tokens?, h]
  simp only [List.reverse_reverse]

/-- **A word ends where another character comes.** -/
theorem word (hne : w ≠ []) (hw : ∀ c ∈ w, isWordPart c = true) (hs : EndsWord s)
    (h : Scans s ts) : Scans (w ++ s) (.word w :: ts) := by
  obtain ⟨c, w, rfl⟩ := List.exists_cons_of_ne_nil hne
  obtain ⟨d, s, rfl, hd⟩ := hs
  have hword : (c :: w).foldlM step ⟨.between, []⟩ = some ⟨.word (c :: w).reverse, []⟩ := by
    rw [List.foldlM_cons]
    simp only [step, start_of_isWordPart (hw c List.mem_cons_self), Option.bind_eq_bind,
      Option.bind_some]
    rw [foldlM_word fun d hd => hw d (List.mem_cons_of_mem _ hd), List.reverse_cons]
  have hnext := h.foldlM_eq [.word (c :: w)]
  rw [List.foldlM_cons] at hnext
  rw [Scans, List.foldlM_append, hword]
  simp only [Option.bind_eq_bind, Option.bind_some, List.foldlM_cons, step, hd, Bool.false_eq_true,
    if_false, List.reverse_reverse] at hnext ⊢
  rw [hnext, List.reverse_cons]

/-- **A plain text between quotes ends at the closing quote.** -/
theorem quoted {text : List Char} (h : Scans s ts) (htext : Plain text) (h' : Scans s' ts') :
    Scans (s ++ ['"'] ++ text ++ ('"' :: s')) (ts ++ .quoted text :: ts') := by
  have hquoted : Scans ('"' :: (text ++ ['"'])) [.quoted text] := by
    have hlast : text.getLast? ≠ some '\\' := fun h => (htext _ (List.mem_of_getLast? h)).2 rfl
    have hopening : step ⟨.between, []⟩ '"' = some ⟨.quoted [], []⟩ := rfl
    rw [Scans, List.foldlM_cons, hopening]
    simp only [Option.bind_eq_bind, Option.bind_some]
    rw [List.foldlM_append, foldlM_quoted htext]
    simp [step, hlast]
  have hall := h.append (hquoted.append h')
  simpa using hall

/-- **What a text begins with decides with which tokens it begins.** -/
theorem exists_of_tokens? (h : Scans s ts) (htokens : tokens? (s ++ s') = some ts') :
    ∃ rest, ts' = ts ++ rest := by
  have honto := foldlM_onto ts.reverse s' ⟨.between, []⟩
  simp only [Scanner.onto, List.nil_append] at honto
  rw [tokens?, List.foldlM_append, h] at htokens
  simp only [Option.bind_eq_bind, Option.bind_some, honto] at htokens
  split at htokens
  · rename_i tokens hfold
    obtain ⟨⟨mode, more⟩, -, hq⟩ := Option.map_eq_some_iff.1 hfold
    cases hq
    cases htokens
    exact ⟨more.reverse, by rw [List.reverse_append, List.reverse_reverse]⟩
  · cases htokens

end Scans

/-! ## Statements one after the other -/

section Reading

variable {tokens rest ts ts' : List Token} {s : Statement} {l m ss ss' : List Statement}

theorem statements_closingBrace : Statements [.closingBrace] m ↔ m = [] := by
  constructor
  · intro h
    cases h with
    | nil => rfl
    | cons first _ => cases first
  · rintro rfl
    exact .nil

theorem statements_iff_of_statement? (h : statement? tokens = some (s, rest)) :
    Statements tokens m ↔ ∃ l, m = s :: l ∧ Statements (skipSemicolon rest) l := by
  constructor
  · intro hm
    cases hm with
    | nil => cases h
    | cons first more =>
        rw [h] at first
        cases first
        exact ⟨_, rfl, more⟩
  · rintro ⟨l, rfl, hl⟩
    exact .cons h hl

/-! The first tokens decide which kind of statement it is. -/

section FirstStatement

variable {w source target : List Char} {attributes : Attributes}

theorem statement?_setting {name value : Token} {s t : List Char} (hname : name.name? = some s)
    (hvalue : value.name? = some t) :
    statement? (name :: .equals :: value :: rest) = some (.setting s t, rest) := by
  simp [statement?, hname, hvalue]

theorem statement?_edge (h : optionalAttributes? tokens = some (attributes, rest)) :
    statement? (.word source :: .arrow :: .word target :: tokens) =
      some (.edge source target attributes, rest) := by
  simp [statement?, Token.name?, h]

theorem statement?_word (hequals : tokens.head? ≠ some .equals)
    (harrow : tokens.head? ≠ some .arrow)
    (h : optionalAttributes? tokens = some (attributes, rest)) :
    statement? (.word w :: tokens) =
      some (if (Token.word w).isKind then .defaults w attributes else .node w attributes,
        rest) := by
  unfold statement?
  split <;> rename_i heq <;> cases heq
  · simp at hequals
  · simp at harrow
  · simp [Token.name?, h]

theorem statement?_defaults (hw : (Token.word w).isKind = true)
    (h : attributes? tokens = some (attributes, rest)) :
    statement? (.word w :: .openingBracket :: tokens) = some (.defaults w attributes, rest) := by
  have hbracket : optionalAttributes? (.openingBracket :: tokens) = some (attributes, rest) := h
  rw [statement?_word (by simp) (by simp) hbracket, if_pos hw]

theorem statement?_node (hw : (Token.word w).isKind = false) (hequals : tokens.head? ≠ some .equals)
    (harrow : tokens.head? ≠ some .arrow)
    (h : optionalAttributes? tokens = some (attributes, rest)) :
    statement? (.word w :: tokens) = some (.node w attributes, rest) := by
  rw [statement?_word hequals harrow h, hw, if_neg Bool.false_ne_true]

end FirstStatement

/-- A statement begins with a name. -/
theorem statement?_of_name? {t : Token} (ht : t.name? = none) : statement? (t :: rest) = none := by
  unfold statement?
  split <;> rename_i heq <;> cases heq <;> simp [ht]

/-- **There is no empty statement.** -/
theorem not_statements_semicolon : ¬ Statements (.semicolon :: rest) m := by
  intro h
  cases h with
  | cons first _ =>
      rw [statement?_of_name? rfl] at first
      cases first

/-- Whatever comes after them, the tokens are read as these statements. -/
def Reads (ts : List Token) (ss : List Statement) : Prop :=
  ∀ rest m, Statements (ts ++ rest) m ↔ ∃ l, m = ss ++ l ∧ Statements rest l

namespace Reads

theorem nil : Reads [] [] := by simp [Reads]

theorem append (h : Reads ts ss) (h' : Reads ts' ss') : Reads (ts ++ ts') (ss ++ ss') := by
  intro rest m
  rw [List.append_assoc, h]
  constructor
  · rintro ⟨l, rfl, hl⟩
    obtain ⟨l', rfl, hl'⟩ := (h' rest l).1 hl
    exact ⟨l', by rw [List.append_assoc], hl'⟩
  · rintro ⟨l, rfl, hl⟩
    exact ⟨ss' ++ l, by rw [List.append_assoc], (h' rest _).2 ⟨l, rfl, hl⟩⟩

theorem flatMap {α : Type} {write : α → List Token} {mean : α → Statement} {l : List α}
    (h : ∀ a ∈ l, Reads (write a) [mean a]) : Reads (l.flatMap write) (l.map mean) := by
  induction l with
  | nil => exact nil
  | cons a l ih =>
      rw [List.flatMap_cons, List.map_cons, ← List.singleton_append]
      exact (h a List.mem_cons_self).append (ih fun b hb => h b (List.mem_cons_of_mem _ hb))

/-- The statements are read one by one. -/
theorem cons (h : ∀ rest, ∃ rest', statement? (ts ++ ts' ++ rest) = some (s, rest') ∧
      skipSemicolon rest' = ts' ++ rest) (h' : Reads ts' ss) : Reads (ts ++ ts') (s :: ss) := by
  intro rest m
  obtain ⟨rest', hfirst, hskip⟩ := h rest
  rw [statements_iff_of_statement? hfirst, hskip]
  constructor
  · rintro ⟨l, rfl, hl⟩
    obtain ⟨l', rfl, hl'⟩ := (h' rest l).1 hl
    exact ⟨l', rfl, hl'⟩
  · rintro ⟨l, rfl, hl⟩
    exact ⟨ss ++ l, rfl, (h' rest _).2 ⟨l, rfl, hl⟩⟩

/-- A single statement is read. -/
theorem single (h : ∀ rest, ∃ rest', statement? (ts ++ rest) = some (s, rest') ∧
      skipSemicolon rest' = rest) : Reads ts [s] := by
  rw [← List.append_nil ts]
  exact cons (by simpa using h) nil

end Reads

/-- **A text that is scanned as statements that can be read describes these and nothing else.** -/
theorem describes_iff {text w : List Char}
    (h : Scans text
      (.word "digraph".toList :: .word w :: .openingBrace :: (ts ++ [.closingBrace])))
    (h' : Reads ts ss) : Describes text l ↔ l = ss := by
  constructor
  · rintro ⟨name, tokens, htokens, hl⟩
    rw [h.tokens?_eq] at htokens
    cases htokens
    obtain ⟨m, rfl, hm⟩ := (h' _ l).1 hl
    rw [statements_closingBrace.1 hm, List.append_nil]
  · rintro rfl
    exact ⟨w, _, h.tokens?_eq, (h' _ _).2 ⟨[], (List.append_nil _).symm, .nil⟩⟩

end Reading

end Dot
end Determinization
