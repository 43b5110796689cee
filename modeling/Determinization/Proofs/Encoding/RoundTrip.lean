import Determinization.Encoding.Writer
import Determinization.Proofs.Encoding.Reading

/-!
# Reading what was written

What the writer makes of an encoding is one of the texts that the grammar has for it
(`isTextOf_write`), the one without any blank or zero that could be left out.  So the reader reads
it as the same encoding (`read_write`).  This needs a state, because the grammar insists on one, and
characters that the grammar does not use for itself.
-/

namespace Determinization

/-- The symbol is the empty word or a character that the grammar does not use for itself. -/
def Symbol.Encodable (x : Symbol) : Prop := ∀ c, x = .char c → isEncodable c = true

namespace Encoding

open Grammar

/-! ## Items -/

theorem numeral_writeNumber (n : UInt32) : Numeral n (writeNumber n) where
  ne_nil := Nat.toDigits_ne_nil
  isDigit _ h := Nat.isDigit_of_mem_toDigits (by decide) (by decide) h
  value_eq := Nat.ofDigitChars_ten_toDigits

theorem label_encode {x : Symbol} (hx : x.Encodable) : Label x x.encode := by
  cases x with
  | epsilon => rfl
  | char c => exact ⟨hx c rfl, rfl⟩

theorem separator_singleton (c : Char) : Separator c [c] :=
  ⟨[], [], blanks_nil, blanks_nil, rfl⟩

theorem gap_space : Gap [' '] :=
  ⟨List.cons_ne_nil _ _, blanks_cons.2 ⟨rfl, blanks_nil⟩⟩

theorem arrow_writeTransition {t : Edge UInt32} (ht : t.label.Encodable) :
    Arrow t (writeTransition t) := by
  refine ⟨writeNumber t.source, [','], t.label.encode, [','], writeNumber t.target,
    numeral_writeNumber _, separator_singleton _, label_encode ht, separator_singleton _,
    numeral_writeNumber _, ?_⟩
  simp [writeTransition, Text.join_cons]

/-! ## Lists and fields -/

section Lists

variable {α : Type} {between : List Char → Prop} {item : α → List Char → Prop}
  {separator : List Char} {write : α → List Char} {l : List α}

theorem more_flatMap (hseparator : between separator) (hitem : ∀ a ∈ l, item a (write a)) :
    More between item l (l.flatMap fun a => separator ++ write a) := by
  induction l with
  | nil => exact .nil
  | cons a l ih =>
      have hrest := ih fun b hb => hitem b (List.mem_cons_of_mem a hb)
      rw [List.flatMap_cons, List.append_assoc]
      exact .cons hseparator (hitem a List.mem_cons_self) hrest

/-- **Joined items are a list of items.** -/
theorem items_join (hseparator : between separator) (hitem : ∀ a ∈ l, item a (write a)) :
    Items between item l (Text.join separator (l.map write)) := by
  cases l with
  | nil => exact .nil
  | cons a l =>
      have hrest := more_flatMap hseparator fun b hb => hitem b (List.mem_cons_of_mem a hb)
      rw [List.map_cons, Text.join_cons, List.flatMap_map]
      exact .cons (hitem a List.mem_cons_self) hrest

end Lists

theorem padded_self {content : List Char → Prop} {s : List Char} (h : content s) :
    Padded content s := ⟨[], s, [], blanks_nil, h, blanks_nil, (List.append_nil s).symm⟩

theorem padded_join_writeNumber (l : List UInt32) :
    Padded (Numbers l) (Text.join [' '] (l.map writeNumber)) :=
  padded_self (items_join gap_space fun n _ => numeral_writeNumber n)

/-! ## Encodings -/

/-- There is a state, and the grammar does not use the characters for itself. -/
structure Writable (e : Encoding) : Prop where
  states_ne_nil : e.states ≠ []
  encodable : ∀ c ∈ e.alphabet, Symbol.isEncodable c = true
  label_encodable : ∀ t ∈ e.transitions, t.label.Encodable

/-- **The written form is a text of the encoding.** -/
theorem isTextOf_write {e : Encoding} (h : e.Writable) : IsTextOf e.write e := by
  have hletters : Letters e.alphabet (Text.join [' '] (e.alphabet.map fun c => [c])) :=
    items_join gap_space fun c hc => ⟨h.encodable c hc, rfl⟩
  have harrows : Arrows e.transitions (Text.join [';'] (e.transitions.map writeTransition)) :=
    ⟨_, [], items_join (separator_singleton ';') fun t ht =>
      arrow_writeTransition (h.label_encodable t ht), Or.inl rfl, (List.append_nil _).symm⟩
  exact .five
    { states_ne_nil := h.states_ne_nil
      states := padded_join_writeNumber e.states
      alphabet := padded_self hletters
      transitions := padded_self harrows
      initial := padded_self (numeral_writeNumber e.initial) }
    (padded_join_writeNumber e.accepting)

/-- **An encoding is read back from its text.** -/
theorem read_write {e : Encoding} (h : e.Writable) : read e.write = .ok e :=
  read_of_isTextOf (isTextOf_write h)

end Encoding
end Determinization
