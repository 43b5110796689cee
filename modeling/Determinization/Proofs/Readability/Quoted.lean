import Determinization.Declaration.Token
import Determinization.Proofs.Readability.Basic
import Determinization.Text.Quoted

/-!
# Quoted texts can be read off messages

What stands between the quotes of a message is written character by character, each by a code: the
character itself, or an escape.  No code is the beginning of another one (`readEscape_escape`) and
none begins with the quote, so a quoted text ends at the first quote that is not part of a code and
can be read off whatever follows it (`quoted_inj`, `quotedChar_inj`).

It can be read off whatever *precedes* it as well, which is needed where a message shows a text as
it is before it shows another one between quotes.  A quote inside of the quotes has a backslash
before it (`exists_backslash_of_codes`), so that the opening quote is the last one that follows a
space (`eq_nil_of_opening`, `quoted_inj_of_space`).
-/

namespace Determinization
namespace Text

open Declaration (digitValue)

variable {s t u v : List Char} {quote c d : Char}

/-! ## Numbers in base sixteen -/

/-- The number with these digits in base sixteen. -/
def hexValue (digits : List Char) : Nat := digits.foldl (fun n c => 16 * n + digitValue c) 0

/-- A number with more than one digit has the last one behind the others. -/
theorem hexDigits_of_le {n : Nat} (h : 16 ≤ n) :
    hexDigits n = hexDigits (n / 16) ++ [(n % 16).digitChar] :=
  Nat.toDigits_of_base_le (by decide) h

theorem hexDigits_of_lt {n : Nat} (h : n < 16) : hexDigits n = [n.digitChar] :=
  Nat.toDigits_of_lt_base h

theorem hexValue_hexDigits (n : Nat) : hexValue (hexDigits n) = n := by
  have hdigit : ∀ d < 16, digitValue d.digitChar = d := by decide
  induction n using Nat.strong_induction_on with
  | h n ih =>
      by_cases hn : n < 16
      · rw [hexDigits_of_lt hn]
        simp [hexValue, hdigit n hn]
      · have hfront : hexValue (hexDigits (n / 16)) = n / 16 := ih _ (by omega)
        have hlast : digitValue (n % 16).digitChar = n % 16 := hdigit _ (by omega)
        rw [hexValue] at hfront
        rw [hexDigits_of_le (by omega), hexValue, List.foldl_append, hfront, List.foldl_cons,
          List.foldl_nil, hlast]
        omega

theorem exists_digitChar_of_mem_hexDigits {n : Nat} (h : c ∈ hexDigits n) :
    ∃ d < 16, c = d.digitChar := by
  induction n using Nat.strong_induction_on with
  | h n ih =>
      by_cases hn : n < 16
      · rw [hexDigits_of_lt hn, List.mem_singleton] at h
        exact ⟨n, hn, h⟩
      · rw [hexDigits_of_le (by omega), List.mem_append, List.mem_singleton] at h
        rcases h with h | h
        · exact ih _ (by omega) h
        · exact ⟨n % 16, by omega, h⟩

theorem isAlphanum_of_mem_hexDigits {n : Nat} (h : c ∈ hexDigits n) : c.isAlphanum = true := by
  have hall : ∀ d < 16, d.digitChar.isAlphanum = true := by decide
  obtain ⟨d, hd, rfl⟩ := exists_digitChar_of_mem_hexDigits h
  exact hall d hd

/-! ## Codes of characters -/

/-- The character that is written as a backslash and another character. -/
def ofEscaped : Char → Char
  | 'n' => '\n'
  | 'r' => '\r'
  | 't' => '\t'
  | '0' => '\x00'
  | c => c

/-- The character whose code a text begins with, and what follows the code. -/
def readEscape : List Char → Option (Char × List Char)
  | '\\' :: 'u' :: '\x7b' :: s =>
      some (Char.ofNat (hexValue (s.takeWhile (· ≠ '\x7d'))), (s.dropWhile (· ≠ '\x7d')).drop 1)
  | '\\' :: c :: s => some (ofEscaped c, s)
  | c :: s => some (c, s)
  | [] => none

theorem readEscape_cons_of_ne (hc : c ≠ '\\') (s : List Char) :
    readEscape (c :: s) = some (c, s) := by
  unfold readEscape
  split
  · rename_i heq
    exact absurd (List.cons.inj heq).1 hc
  · rename_i heq
    exact absurd (List.cons.inj heq).1 hc
  · rename_i heq
    cases heq
    rfl
  · rename_i heq
    cases heq

/-- A character that is no letter and no digit stands for itself after a backslash. -/
theorem readEscape_backslash (hc : c.isAlphanum = false) (s : List Char) :
    readEscape ('\\' :: c :: s) = some (c, s) := by
  have hletter : ∀ d : Char, d.isAlphanum = true → c ≠ d := by
    rintro d hd rfl
    rw [hc] at hd
    cases hd
  have hescaped : ofEscaped c = c := by
    unfold ofEscaped
    split
    · exact absurd rfl (hletter 'n' (by decide))
    · exact absurd rfl (hletter 'r' (by decide))
    · exact absurd rfl (hletter 't' (by decide))
    · exact absurd rfl (hletter '0' (by decide))
    · rfl
  unfold readEscape
  split
  · rename_i heq
    exact absurd (List.cons.inj (List.cons.inj heq).2).1 (hletter 'u' (by decide))
  · rename_i heq
    cases heq
    rw [hescaped]
  · rename_i hother heq
    cases heq
    exact absurd rfl (hother c s rfl)
  · rename_i heq
    cases heq

theorem readEscape_codePoint (c : Char) (s : List Char) :
    readEscape (['\\', 'u', '\x7b'] ++ hexDigits c.toNat ++ ['\x7d'] ++ s) = some (c, s) := by
  have hdigits : ∀ d ∈ hexDigits c.toNat, decide (d ≠ '\x7d') = true := by
    intro d hd
    rw [decide_eq_true_iff]
    rintro rfl
    exact absurd (isAlphanum_of_mem_hexDigits hd) (by decide)
  have htake : (hexDigits c.toNat ++ '\x7d' :: s).takeWhile (· ≠ '\x7d') = hexDigits c.toNat := by
    rw [List.takeWhile_append_of_pos hdigits, List.takeWhile_cons_of_neg (by decide),
      List.append_nil]
  have hdrop : (hexDigits c.toNat ++ '\x7d' :: s).dropWhile (· ≠ '\x7d') = '\x7d' :: s := by
    rw [List.dropWhile_append_of_pos hdigits, List.dropWhile_cons_of_neg (by decide)]
  simp only [List.append_assoc, List.cons_append, List.nil_append, readEscape, htake, hdrop,
    hexValue_hexDigits, Char.ofNat_toNat, List.drop_one, List.tail_cons]

/-- **No code is the beginning of another one.** -/
theorem readEscape_escape (hquote : quote.isAlphanum = false) (c : Char) (s : List Char) :
    readEscape (escape quote c ++ s) = some (c, s) := by
  unfold escape
  split
  · rfl
  · rfl
  · rfl
  · rfl
  · rfl
  · rename_i hbackslash _ _ _ _
    split
    · rename_i hc
      subst hc
      exact readEscape_backslash hquote s
    · split
      · exact readEscape_codePoint c s
      · exact readEscape_cons_of_ne hbackslash s

theorem escape_inj (hquote : quote.isAlphanum = false)
    (h : escape quote c ++ u = escape quote d ++ v) : c = d ∧ u = v := by
  have hread : some (c, u) = some (d, v) := by
    rw [← readEscape_escape hquote, h, readEscape_escape hquote]
  simpa using hread

/-- A code is a backslash and a character, a code point, or the character itself. -/
theorem escape_cases (quote c : Char) :
    (∃ d, escape quote c = ['\\', d]) ∨
      escape quote c = ['\\', 'u', '\x7b'] ++ hexDigits c.toNat ++ ['\x7d'] ∨
      escape quote c = [c] ∧ c ≠ quote ∧ c ≠ '\\' := by
  unfold escape
  split
  · exact .inl ⟨_, rfl⟩
  · exact .inl ⟨_, rfl⟩
  · exact .inl ⟨_, rfl⟩
  · exact .inl ⟨_, rfl⟩
  · exact .inl ⟨_, rfl⟩
  · rename_i hbackslash _ _ _ _
    split
    · exact .inl ⟨_, rfl⟩
    · rename_i hquote
      split
      · exact .inr (.inl rfl)
      · exact .inr (.inr ⟨rfl, hquote, hbackslash⟩)

/-- No code begins like the closing quote. -/
theorem escape_append_ne (hquote : quote ≠ '\\') (c : Char) (s r : List Char) :
    escape quote c ++ s ≠ quote :: r := by
  rcases escape_cases quote c with ⟨d, hcode⟩ | hcode | ⟨hcode, hc, -⟩
  · rw [hcode]
    exact fun h => hquote (List.cons.inj h).1.symm
  · rw [hcode]
    exact fun h => hquote (List.cons.inj h).1.symm
  · rw [hcode]
    exact fun h => hc (List.cons.inj h).1

/-! ## Texts between quotes -/

/-- **A text can be read off its quotation.** -/
theorem quoted_inj (h : quoted s ++ u = quoted t ++ v) : s = t ∧ u = v := by
  simp only [quoted, List.cons_append, List.nil_append, List.append_assoc, List.cons.injEq,
    true_and] at h
  exact codes_inj (fun _ _ _ _ => escape_inj (by decide)) (escape_append_ne (by decide)) h

theorem quotedChar_inj (h : quotedChar c ++ u = quotedChar d ++ v) : c = d ∧ u = v := by
  simp only [quotedChar, List.cons_append, List.nil_append, List.append_assoc, List.cons.injEq,
    true_and] at h
  obtain ⟨hcd, hrest⟩ := escape_inj (by decide) h
  exact ⟨hcd, (List.cons.inj hrest).2⟩

/-- In a code, a double quote comes after the backslash with which the code begins. -/
theorem escape_eq_append_quote {front back : List Char}
    (h : escape '"' c = front ++ '"' :: back) : front = ['\\'] := by
  rcases escape_cases '"' c with ⟨d, hcode⟩ | hcode | ⟨hcode, hc, -⟩
  · rw [hcode] at h
    rcases front with _ | ⟨b, _ | ⟨b', front⟩⟩
    · exact absurd (List.cons.inj h).1 (by decide)
    · rw [(List.cons.inj h).1]
    · simp at h
  · have hmem : '"' ∈ escape '"' c := by
      rw [h]
      exact List.mem_append_right _ List.mem_cons_self
    rw [hcode] at hmem
    simp only [List.mem_append, List.mem_cons, List.not_mem_nil, or_false] at hmem
    rcases hmem with ((hmem | hmem | hmem) | hmem) | hmem
    · exact absurd hmem (by decide)
    · exact absurd hmem (by decide)
    · exact absurd hmem (by decide)
    · exact absurd (isAlphanum_of_mem_hexDigits hmem) (by decide)
    · exact absurd hmem (by decide)
  · have hmem : '"' ∈ escape '"' c := by
      rw [h]
      exact List.mem_append_right _ List.mem_cons_self
    rw [hcode, List.mem_singleton] at hmem
    exact absurd hmem.symm hc

/-- **Inside of the quotes every double quote has a backslash before it.** -/
theorem exists_backslash_of_codes {front back : List Char}
    (h : s.flatMap (escape '"') = front ++ '"' :: back) : ∃ r, front = r ++ ['\\'] := by
  induction s generalizing front with
  | nil => simp at h
  | cons c s ih =>
      rw [List.flatMap_cons, List.append_eq_append_iff] at h
      rcases h with ⟨r, rfl, hrest⟩ | ⟨r, hcode, hrest⟩
      · obtain ⟨r', rfl⟩ := ih hrest
        exact ⟨escape '"' c ++ r', (List.append_assoc _ _ _).symm⟩
      · cases r with
        | nil =>
            have hcodes : s.flatMap (escape '"') = [] ++ '"' :: back := hrest.symm
            obtain ⟨r', hr'⟩ := ih hcodes
            simp at hr'
        | cons b r =>
            obtain ⟨rfl, -⟩ := List.cons.inj hrest
            exact ⟨[], escape_eq_append_quote hcode⟩

/-- No quotation opens inside of another one, since the quote that opens it follows a space. -/
theorem eq_nil_of_opening {r : List Char} (hfront : v ++ [' ', '"'] = u ++ [' ', '"'] ++ r)
    (hcodes : s.flatMap (escape '"') = r ++ t.flatMap (escape '"')) : r = [] := by
  rcases List.eq_nil_or_concat r with rfl | ⟨r', b, rfl⟩
  · rfl
  · exfalso
    have hsplit : (v ++ [' ']) ++ ['"'] = (u ++ [' ', '"'] ++ r') ++ [b] := by
      simpa using hfront
    obtain ⟨hbefore, hb⟩ := List.append_inj' hsplit rfl
    obtain rfl : '"' = b := (List.cons.inj hb).1
    rw [List.concat_eq_append, List.append_assoc] at hcodes
    obtain ⟨r'', rfl⟩ := exists_backslash_of_codes hcodes
    have hlast : v ++ [' '] = (u ++ [' ', '"'] ++ r'') ++ ['\\'] := by simpa using hbefore
    exact absurd (List.cons.inj (List.append_inj' hlast rfl).2).1 (by decide)

theorem append_space_quoted (u s : List Char) :
    u ++ ' ' :: quoted s = ((u ++ [' ', '"']) ++ s.flatMap (escape '"')) ++ ['"'] := by
  simp [quoted]

/-- **A quoted text at the end can be read off,** whatever stands before the space before it. -/
theorem quoted_inj_of_space (h : u ++ ' ' :: quoted s = v ++ ' ' :: quoted t) : u = v ∧ s = t := by
  have hboth := h
  rw [append_space_quoted, append_space_quoted, List.append_left_inj,
    List.append_eq_append_iff] at hboth
  -- of the two opening quotes, one would be inside of the other quotes
  have hfronts : u ++ [' ', '"'] = v ++ [' ', '"'] := by
    rcases hboth with ⟨r, hfront, hcodes⟩ | ⟨r, hfront, hcodes⟩
    · obtain rfl := eq_nil_of_opening hfront hcodes
      rw [hfront, List.append_nil]
    · obtain rfl := eq_nil_of_opening hfront hcodes
      rw [hfront, List.append_nil]
  obtain rfl : u = v := List.append_cancel_right hfronts
  have hquotes : quoted s ++ [] = quoted t ++ [] := by
    rw [(List.cons.inj (List.append_cancel_left h)).2]
  exact ⟨rfl, (quoted_inj hquotes).1⟩

end Text
end Determinization
