import Determinization.Declaration.Token
import Determinization.Json
import Determinization.Proofs.Readability.Basic

/-!
# Documents can be read off their layout over several lines

A JSON document laid out over several lines is no other document laid out so, and not the beginning
of one either (`Json.readable_prettyAt`), provided that no digit follows.  So documents are equal if
their layouts are (`Json.pretty_inj`).

* Inside quotes every character is written by a code, and no code is the beginning of another one or
  contains a quote at its beginning.  This is shown by reading the codes back (`readCode_escape`).
  So a text between quotes ends at the first quote that is not part of a code (`quoted_inj`).
* The four kinds of documents begin with different characters (`exists_prettyAt_eq_cons`).
* What stands between brackets is a list of items with a comma and a line break between neighbours,
  and a line break without a comma at the end (`block_inj`).  The spaces after line breaks need no
  attention: they depend on the level, and the level is the same on both sides.
-/

namespace Determinization
namespace Json

open Declaration (digitValue)

variable {u v : List Char}

/-! ## Texts between quotes -/

/-- The character that is written as a backslash and a letter. -/
def ofLetter : Char → Char
  | 'n' => '\n'
  | 'r' => '\r'
  | 't' => '\t'
  | 'b' => '\x08'
  | 'f' => '\x0c'
  | c => c

/-- The character whose code a text begins with, and what follows the code. -/
def readCode : List Char → Option (Char × List Char)
  | '\\' :: 'u' :: '0' :: '0' :: x :: y :: s =>
      some (Char.ofNat (16 * digitValue x + digitValue y), s)
  | '\\' :: c :: s => some (ofLetter c, s)
  | c :: s => some (c, s)
  | [] => none

theorem readCode_cons_of_ne {c : Char} (hc : c ≠ '\\') (s : List Char) :
    readCode (c :: s) = some (c, s) := by
  unfold readCode
  split
  · rename_i heq
    exact absurd (List.cons.inj heq).1 hc
  · rename_i heq
    exact absurd (List.cons.inj heq).1 hc
  · rename_i heq
    cases heq
    rfl
  · rename_i heq
    cases heq

/-- **No code is the beginning of another one.** -/
theorem readCode_escape (c : Char) (s : List Char) : readCode (escape c ++ s) = some (c, s) := by
  unfold escape
  split
  · rfl
  · rfl
  · rfl
  · rfl
  · rfl
  · rfl
  · rfl
  · rename_i hbackslash _ _ _ _ _
    split
    · rename_i hcontrol
      have hdigits : ∀ n < 0x20,
          16 * digitValue (n / 16).digitChar + digitValue (n % 16).digitChar = n := by decide
      simp only [fourDigits, List.cons_append, List.nil_append, readCode, hdigits _ hcontrol,
        Char.ofNat_toNat]
    · exact readCode_cons_of_ne hbackslash s

theorem escape_inj {c d : Char} (h : escape c ++ u = escape d ++ v) : c = d ∧ u = v := by
  have hread : some (c, u) = some (d, v) := by
    rw [← readCode_escape, h, readCode_escape]
  simpa using hread

/-- No code begins like the closing quote. -/
theorem escape_append_ne (c : Char) (s r : List Char) : escape c ++ s ≠ '"' :: r := by
  intro h
  have hread := readCode_escape c s
  rw [h] at hread
  obtain ⟨rfl, rfl⟩ : '"' = c ∧ r = s := by simpa [readCode] using hread
  cases h

/-- **A text can be read off its quotation.** -/
theorem quoted_inj {s t : List Char} (h : quoted s ++ u = quoted t ++ v) : s = t ∧ u = v := by
  simp only [quoted, List.cons_append, List.nil_append, List.append_assoc, List.cons.injEq,
    true_and] at h
  exact Text.codes_inj (fun _ _ _ _ => escape_inj) escape_append_ne h

/-! ## Kinds of documents -/

/-- The kinds of documents. -/
inductive Kind where
  | string
  | number
  | array
  | object
  deriving DecidableEq

/-- The kind of a document. -/
def kind : Json → Kind
  | string _ => .string
  | number _ => .number
  | array _ => .array
  | object _ => .object

/-- The kind of the documents whose layouts begin with a character. -/
def Kind.ofFirst (c : Char) : Kind :=
  if c = '"' then string else if c.isDigit then number else if c = '[' then array else object

theorem exists_block_eq_cons (level : Nat) (opening closing : Char) (items : List (List Char)) :
    ∃ s, block level opening closing items = opening :: s := by
  cases items <;> exact ⟨_, rfl⟩

theorem exists_prettyAt_eq_cons (d : Json) (level : Nat) :
    ∃ c s, d.prettyAt level = c :: s ∧ Kind.ofFirst c = d.kind := by
  cases d with
  | string s => exact ⟨'"', _, by rw [prettyAt]; rfl, rfl⟩
  | number n =>
      obtain ⟨c, s, hn, hdigit⟩ := Text.exists_decimal_eq_cons n
      refine ⟨c, s, by rw [prettyAt, hn], ?_⟩
      have hquote : c ≠ '"' := by
        rintro rfl
        exact absurd hdigit (by decide)
      simp [Kind.ofFirst, kind, hdigit, hquote]
  | array items =>
      obtain ⟨s, hs⟩ := exists_block_eq_cons level '[' ']' (prettyItems (level + 1) items)
      exact ⟨'[', s, by rw [prettyAt, hs], rfl⟩
  | object fields =>
      obtain ⟨s, hs⟩ := exists_block_eq_cons level '\x7b' '\x7d' (prettyFields (level + 1) fields)
      exact ⟨'\x7b', s, by rw [prettyAt, hs], rfl⟩

theorem kind_eq {d e : Json} {level : Nat} (h : d.prettyAt level ++ u = e.prettyAt level ++ v) :
    d.kind = e.kind := by
  obtain ⟨c, s, hd, hc⟩ := exists_prettyAt_eq_cons d level
  obtain ⟨c', s', he, hc'⟩ := exists_prettyAt_eq_cons e level
  rw [hd, he, List.cons_append, List.cons_append, List.cons.injEq] at h
  rw [← hc, ← hc', h.1]

/-! ## Brackets -/

/-- **Items on lines of their own can be read off one by one.** -/
theorem block_inj {α : Type} {write : α → List Char} {l m : List α} {level : Nat}
    {opening closing : Char} (hclosing : closing ≠ '\n') (hl : ∀ a ∈ l, Text.Readable write a)
    (h : block level opening closing (l.map write) ++ u =
      block level opening closing (m.map write) ++ v) : l = m ∧ u = v := by
  have hitems : ∀ (a : α) k w, block level opening closing ((a :: k).map write) ++ w =
      opening :: (newline (level + 1) ++ (Text.join (',' :: newline (level + 1))
        ((a :: k).map write) ++ ('\n' :: (List.replicate (2 * level) ' ' ++ [closing]) ++ w))) := by
    intro a k w
    simp [block, newline]
  cases l with
  | nil =>
      cases m with
      | nil => exact ⟨rfl, List.append_cancel_left h⟩
      | cons b m =>
          rw [hitems] at h
          exact absurd (List.cons.inj (List.cons.inj h).2).1 hclosing
  | cons a l =>
      cases m with
      | nil =>
          rw [hitems] at h
          exact absurd (List.cons.inj (List.cons.inj h).2).1.symm hclosing
      | cons b m =>
          rw [hitems, hitems] at h
          exact Text.join_inj (by decide) (by decide) (by decide) hl (List.cons_ne_nil a l)
            (List.cons_ne_nil b m) (List.append_cancel_left (List.cons.inj h).2)

/-! ## Documents -/

/-- A field of an object, at a level. -/
def prettyField (level : Nat) (f : List Char × Json) : List Char :=
  quoted f.1 ++ [':', ' '] ++ f.2.prettyAt level

theorem prettyItems_eq_map (level : Nat) :
    ∀ items : List Json, prettyItems level items = items.map (prettyAt level)
  | [] => by rw [prettyItems, List.map_nil]
  | d :: items => by rw [prettyItems, prettyItems_eq_map level items, List.map_cons]

theorem prettyFields_eq_map (level : Nat) :
    ∀ fields : List (List Char × Json),
      prettyFields level fields = fields.map (prettyField level)
  | [] => by rw [prettyFields, List.map_nil]
  | (k, d) :: fields => by
      rw [prettyFields, prettyFields_eq_map level fields, List.map_cons, prettyField]

theorem readable_prettyField {level : Nat} {f : List Char × Json}
    (h : Text.Readable (prettyAt level) f.2) : Text.Readable (prettyField level) f := by
  intro g u v hu hv heq
  simp only [prettyField, List.append_assoc] at heq
  obtain ⟨hname, hvalue⟩ := quoted_inj heq
  obtain ⟨hdocument, huv⟩ := h g.2 u v hu hv (List.append_cancel_left hvalue)
  exact ⟨Prod.ext hname hdocument, huv⟩

mutual

/-- **No document looks like another one,** nor like the beginning of one. -/
theorem readable_prettyAt : ∀ (d : Json) (level : Nat), Text.Readable (prettyAt level) d
  | .string s, level => by
      intro e u v _ _ h
      cases e with
      | string t =>
          rw [prettyAt, prettyAt] at h
          obtain ⟨rfl, huv⟩ := quoted_inj h
          exact ⟨rfl, huv⟩
      | _ => cases kind_eq h
  | .number n, level => by
      intro e u v hu hv h
      cases e with
      | number k =>
          rw [prettyAt, prettyAt] at h
          obtain ⟨rfl, huv⟩ := Text.readable_decimal n k u v hu hv h
          exact ⟨rfl, huv⟩
      | _ => cases kind_eq h
  | .array items, level => by
      intro e u v _ _ h
      cases e with
      | array items' =>
          rw [prettyAt, prettyAt, prettyItems_eq_map, prettyItems_eq_map] at h
          obtain ⟨rfl, huv⟩ := block_inj (by decide) (readable_items items (level + 1)) h
          exact ⟨rfl, huv⟩
      | _ => cases kind_eq h
  | .object fields, level => by
      intro e u v _ _ h
      cases e with
      | object fields' =>
          rw [prettyAt, prettyAt, prettyFields_eq_map, prettyFields_eq_map] at h
          obtain ⟨rfl, huv⟩ := block_inj (by decide) (readable_fields fields (level + 1)) h
          exact ⟨rfl, huv⟩
      | _ => cases kind_eq h

theorem readable_items : ∀ (items : List Json) (level : Nat),
    ∀ d ∈ items, Text.Readable (prettyAt level) d
  | [], _ => fun _ h => absurd h List.not_mem_nil
  | e :: items, level => by
      intro d hd
      rcases List.mem_cons.1 hd with heq | hd
      · exact heq ▸ readable_prettyAt e level
      · exact readable_items items level d hd

theorem readable_fields : ∀ (fields : List (List Char × Json)) (level : Nat),
    ∀ f ∈ fields, Text.Readable (prettyField level) f
  | [], _ => fun _ h => absurd h List.not_mem_nil
  | (k, d) :: fields, level => by
      intro f hf
      rcases List.mem_cons.1 hf with heq | hf
      · exact heq ▸ readable_prettyField (readable_prettyAt d level)
      · exact readable_fields fields level f hf

end

/-- **Documents with the same layout are the same.** -/
theorem pretty_inj {d e : Json} (h : d.pretty = e.pretty) : d = e :=
  (readable_prettyAt d 0).eq h

end Json
end Determinization
