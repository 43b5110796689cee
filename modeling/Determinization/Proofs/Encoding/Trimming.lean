import Determinization.Proofs.Encoding.Derivation
import Determinization.Proofs.Encoding.RoundTrip

/-!
# Trimming encodings

A command cuts white space from the ends of the text that it reads and from the end of what it
prints.  White space is more than the blanks that the grammar skips, so cutting it could take
something away that counts.  It does not, for two reasons.

* Trimming a text of several fields trims the first field at its beginning and the last one at its
  end, and nothing else: no slash is white space (`Text.trimStart_append_cons`,
  `Text.trimEnd_append_cons`).
* What a field says is between its blanks.  The numbers in the first and in the last field begin and
  end with digits (`Text.Visible`), so trimming cuts the blanks around them, all of which are white
  space, and stops there.

So the trimmed text has the same content (`Encoding.Grammar.IsTextOf.trim`), and what can be read is
read as the same automaton after trimming (`Automaton.parse_trim`).  A written form ends with a
digit of the last accepting state, or with a slash where there is none; there is nothing to trim at
its end (`Automaton.trimEnd_encode`).
-/

namespace Determinization
namespace Text

variable {c : Char} {p r s : List Char}

/-! ## Where trimming stops -/

/-- Leading white space is cut. -/
theorem trimStart_append (hp : ∀ c ∈ p, isBlank c = true) (s : List Char) :
    trimStart (p ++ s) = trimStart s := List.dropWhile_append_of_pos hp

/-- Trailing white space is cut. -/
theorem trimEnd_append (s : List Char) (hr : ∀ c ∈ r, isBlank c = true) :
    trimEnd (s ++ r) = trimEnd s := by
  have hreverse : ∀ c ∈ r.reverse, isBlank c = true := fun c hc => hr c (List.mem_reverse.1 hc)
  rw [trimEnd, List.reverse_append, trimStart_append hreverse, trimEnd]

theorem trimStart_cons (hc : isBlank c = false) (s : List Char) : trimStart (c :: s) = c :: s := by
  rw [trimStart, List.dropWhile_cons, hc]
  rfl

/-- **From the beginning, nothing is cut behind a character that is not white space.** -/
theorem trimStart_append_cons (hc : isBlank c = false) (s t : List Char) :
    trimStart (s ++ c :: t) = trimStart s ++ c :: t := by
  induction s with
  | nil => exact trimStart_cons hc t
  | cons d s ih =>
      rcases hd : isBlank d with _ | _
      · rw [List.cons_append, trimStart_cons hd, trimStart_cons hd, List.cons_append]
      · rw [List.cons_append, trimStart, List.dropWhile_cons_of_pos hd, ← trimStart, ih, trimStart,
          trimStart, List.dropWhile_cons_of_pos hd]

/-- **From the end, nothing is cut before a character that is not white space.** -/
theorem trimEnd_append_cons (hc : isBlank c = false) (s t : List Char) :
    trimEnd (s ++ c :: t) = s ++ c :: trimEnd t := by
  have hreverse : (s ++ c :: t).reverse = t.reverse ++ c :: s.reverse := by
    rw [List.reverse_append, List.reverse_cons, List.append_assoc, List.singleton_append]
  rw [trimEnd, hreverse, trimStart_append_cons hc, List.reverse_append, List.reverse_cons,
    List.reverse_reverse, List.append_assoc, List.singleton_append, ← trimEnd]

/-- Of several fields, the first is trimmed at its beginning. -/
theorem trimStart_join (hc : isBlank c = false) (p q : List Char) (l : List (List Char)) :
    trimStart (join [c] (p :: q :: l)) = join [c] (trimStart p :: q :: l) := by
  rw [join_cons, join_cons, List.flatMap_cons]
  exact trimStart_append_cons hc p (q ++ l.flatMap fun q => [c] ++ q)

/-- Of several fields, the last is trimmed at its end. -/
theorem trimEnd_join (hc : isBlank c = false) (p : List Char) (l : List (List Char))
    (r : List Char) : trimEnd (join [c] (p :: l ++ [r])) = join [c] (p :: l ++ [trimEnd r]) := by
  have hjoin : ∀ u, join [c] (p :: l ++ [u]) = p ++ (l.flatMap fun q => [c] ++ q) ++ c :: u := by
    intro u
    rw [List.cons_append, join_cons, List.flatMap_append, List.flatMap_singleton, List.append_assoc]
    rfl
  rw [hjoin, hjoin, trimEnd_append_cons hc]

/-- The text begins and ends with characters that are not white space. -/
structure Visible (s : List Char) : Prop where
  first : ∃ c t, s = c :: t ∧ isBlank c = false
  last : ∃ c t, s = t ++ [c] ∧ isBlank c = false

namespace Visible

theorem trimStart_append (h : Visible s) (r : List Char) : trimStart (s ++ r) = s ++ r := by
  obtain ⟨c, t, rfl, hc⟩ := h.first
  exact trimStart_cons hc (t ++ r)

theorem trimEnd_append (h : Visible s) (p : List Char) : trimEnd (p ++ s) = p ++ s := by
  obtain ⟨c, t, rfl, hc⟩ := h.last
  rw [← List.append_assoc, trimEnd_append_cons hc]
  rfl

/-- What stands between two visible texts does not matter. -/
theorem append_append (hp : Visible p) (q : List Char) (hr : Visible r) :
    Visible (p ++ (q ++ r)) := by
  obtain ⟨c, t, rfl, hc⟩ := hp.first
  obtain ⟨d, u, rfl, hd⟩ := hr.last
  refine ⟨⟨c, t ++ (q ++ (u ++ [d])), rfl, hc⟩, ⟨d, c :: t ++ (q ++ u), ?_, hd⟩⟩
  simp only [List.append_assoc]

end Visible

end Text

namespace Encoding
namespace Grammar

open Text (Visible)

variable {n : UInt32} {s : List Char} {e : Encoding}

/-! ## Fields -/

theorem Blanks.isBlank (h : Blanks s) : ∀ c ∈ s, Text.isBlank c = true := fun c hc =>
  Text.isBlank_of_isSkipped (h c hc)

theorem isBlank_of_isDigit {c : Char} (h : c.isDigit = true) : Text.isBlank c = false := by
  have hencodable := isEncodable_of_isDigit h
  rw [Symbol.isEncodable] at hencodable
  rcases hblank : Text.isBlank c with _ | _
  · rfl
  · rw [hblank] at hencodable
    cases hencodable

theorem Numeral.visible (h : Numeral n s) : Visible s := by
  have hfirst := List.cons_head_tail h.ne_nil
  have hlast := List.dropLast_append_getLast h.ne_nil
  have hdigit : ∀ c ∈ s, Text.isBlank c = false := fun c hc => isBlank_of_isDigit (h.isDigit c hc)
  exact ⟨⟨_, _, hfirst.symm, hdigit _ (List.head_mem _)⟩,
    ⟨_, _, hlast.symm, hdigit _ (List.getLast_mem _)⟩⟩

/-- Numbers are the empty text, or they begin and end with digits. -/
theorem Numbers.eq_nil_or_visible {l : List UInt32} (h : Numbers l s) : s = [] ∨ Visible s := by
  -- the gaps stand between numbers, so it is the first and the last number that count
  have hmore : ∀ {m p r}, More Gap Numeral m r → Visible p → Visible (p ++ r) := by
    intro m p r hr hp
    induction hr generalizing p with
    | nil => rwa [List.append_nil]
    | @cons a l g q r _ first _ ih => exact hp.append_append g (ih first.visible)
  cases h with
  | nil => exact Or.inl rfl
  | cons first rest => exact Or.inr (hmore rest first.visible)

section Padded

variable {content : List Char → Prop}
  (h : Padded content s) (hcontent : ∀ {q}, content q → q = [] ∨ Visible q)

include h hcontent

/-- A field keeps its content if its beginning is trimmed. -/
theorem Padded.trimStart : Padded content (Text.trimStart s) := by
  obtain ⟨p, q, r, hp, hq, hr, rfl⟩ := h
  rw [Text.trimStart_append hp.isBlank]
  rcases hcontent hq with rfl | hvisible
  · have hnil : Text.trimStart ([] ++ r) = [] := List.dropWhile_eq_nil_iff.2 hr.isBlank
    rw [hnil]
    exact padded_self hq
  · rw [hvisible.trimStart_append]
    exact ⟨[], q, r, blanks_nil, hq, hr, rfl⟩

/-- A field keeps its content if its end is trimmed. -/
theorem Padded.trimEnd : Padded content (Text.trimEnd s) := by
  obtain ⟨p, q, r, hp, hq, hr, rfl⟩ := h
  rw [← List.append_assoc, Text.trimEnd_append _ hr.isBlank]
  rcases hcontent hq with rfl | hvisible
  · have hnil : Text.trimEnd (p ++ []) = [] := by
      rw [List.append_nil]
      exact Text.trimEnd_append [] hp.isBlank
    rw [hnil]
    exact padded_self hq
  · rw [hvisible.trimEnd_append]
    exact ⟨p, q, [], hp, hq, blanks_nil, by rw [List.append_nil]⟩

end Padded

/-! ## Texts -/

/-- **A text has the same content when it is trimmed.** -/
theorem IsTextOf.trim (h : IsTextOf s e) : IsTextOf (Text.trim s) e := by
  have hslash : Text.isBlank '/' = false := rfl
  cases h with
  | @four _ states alphabet transitions initial fields none =>
      have hstates := fields.states.trimStart Numbers.eq_nil_or_visible
      have hinitial := fields.initial.trimEnd fun h => Or.inr h.visible
      have htrim : Text.trim (Text.join ['/'] [states, alphabet, transitions, initial]) =
          Text.join ['/']
            [Text.trimStart states, alphabet, transitions, Text.trimEnd initial] := by
        rw [Text.trim, Text.trimStart_join hslash]
        exact Text.trimEnd_join hslash _ [alphabet, transitions] initial
      rw [htrim]
      exact .four ⟨fields.states_ne_nil, hstates, fields.alphabet, fields.transitions, hinitial⟩
        none
  | @five _ states alphabet transitions initial accepting fields last =>
      have hstates := fields.states.trimStart Numbers.eq_nil_or_visible
      have hlast := last.trimEnd Numbers.eq_nil_or_visible
      have htrim : Text.trim (Text.join ['/'] [states, alphabet, transitions, initial, accepting]) =
          Text.join ['/']
            [Text.trimStart states, alphabet, transitions, initial, Text.trimEnd accepting] := by
        rw [Text.trim, Text.trimStart_join hslash]
        exact Text.trimEnd_join hslash _ [alphabet, transitions, initial] accepting
      rw [htrim]
      exact .five
        ⟨fields.states_ne_nil, hstates, fields.alphabet, fields.transitions, fields.initial⟩ hlast

end Grammar

open Grammar

/-- A written form ends with a digit or a slash. -/
theorem trimEnd_write (e : Encoding) : Text.trimEnd e.write = e.write := by
  have hnumbers : Numbers e.accepting (Text.join [' '] (e.accepting.map writeNumber)) :=
    items_join gap_space fun n _ => numeral_writeNumber n
  have hlast : Text.trimEnd (Text.join [' '] (e.accepting.map writeNumber)) =
      Text.join [' '] (e.accepting.map writeNumber) := by
    rcases hnumbers.eq_nil_or_visible with hnil | hvisible
    · rw [hnil]
      rfl
    · exact hvisible.trimEnd_append []
  have htrim := Text.trimEnd_join (c := '/') rfl (Text.join [' '] (e.states.map writeNumber))
    [Text.join [' '] (e.alphabet.map fun c => [c]),
      Text.join [';'] (e.transitions.map writeTransition), writeNumber e.initial]
    (Text.join [' '] (e.accepting.map writeNumber))
  rw [hlast] at htrim
  exact htrim

end Encoding

namespace Automaton

variable {a : Automaton} {text : List Char}

/-- **A text that is read is read as the same automaton when it is trimmed.** -/
theorem parse_trim (h : parse text = .ok a) : parse (Text.trim text) = .ok a := by
  unfold parse at h
  split at h
  · cases h
  · rename_i e hread
    have htext : Encoding.Grammar.IsTextOf (Text.trim text) e :=
      (Encoding.isTextOf_of_read hread).trim
    rw [parse, Encoding.read_of_isTextOf htext]
    exact h

/-- **There is nothing to trim at the end of a written form.** -/
theorem trimEnd_encode (a : Automaton) : Text.trimEnd a.encode = a.encode :=
  a.toEncoding.trimEnd_write

end Automaton
end Determinization
