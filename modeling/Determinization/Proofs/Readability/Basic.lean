import Determinization.Proofs.Encoding.RoundTrip

/-!
# Texts from which their parts can be read off

The notations of this library put things one after the other and escape nothing.  Whether two
things can look the same is then a question of where one text ends and the next begins, and the
right notion is that of a text that cannot be mistaken for the beginning of another one:
`Readable write a` says that if `write a` and `write b`, each with something behind it, read the
same, then `a` is `b` and the same stands behind them.

Numbers set the only condition on what stands behind a text.  A number could be the beginning of a
longer one, so no digit may follow (`EndsNumber`).  Separators and brackets never begin with one.

* Decimal numbers are readable (`readable_decimal`).
* Lists are readable item by item, if the separator and what closes the list begin differently
  (`join_inj`).  The list without items has to be told apart separately, because there what closes
  the list stands in the place of an item (`closed_join_inj`, `braced_inj`).
* So are items without separators, up to something that does not begin like an item
  (`flatMap_inj`).  If no item is the beginning of another one even with a digit behind it, as is so
  of the codes that characters have between quotes, then no condition is needed (`codes_inj`).

No condition is put on the other items of the kind: that `a` is readable compares its text with the
texts of all `b`, readable or not.  So the notion suits inductions over nested things, where only
parts of one of the two things are known to be readable.
-/

namespace Determinization
namespace Text

open Encoding (EndsNumber endsNumber_cons endsNumber_nil)

variable {α : Type} {write : α → List Char} {a b : α} {l m : List α} {u v : List Char}

/-- The text of the thing is neither the text of another thing nor the beginning of one, even with
something behind it, unless that is a digit. -/
def Readable (write : α → List Char) (a : α) : Prop :=
  ∀ b u v, EndsNumber u → EndsNumber v → write a ++ u = write b ++ v → a = b ∧ u = v

theorem Readable.eq (h : Readable write a) (heq : write a = write b) : a = b :=
  (h b [] [] endsNumber_nil endsNumber_nil (by rw [heq])).1

/-! ## Numbers -/

theorem isDigit_of_mem_decimal {n : Nat} {c : Char} (h : c ∈ decimal n) : c.isDigit = true :=
  Nat.isDigit_of_mem_toDigits (by decide) (by decide) h

/-- A number begins with a digit. -/
theorem exists_decimal_eq_cons (n : Nat) : ∃ c s, decimal n = c :: s ∧ c.isDigit = true := by
  obtain ⟨c, s, hn⟩ := List.exists_cons_of_ne_nil (Nat.toDigits_ne_nil (n := n) (b := 10))
  have hdecimal : decimal n = c :: s := hn
  exact ⟨c, s, hdecimal, isDigit_of_mem_decimal (hdecimal ▸ List.mem_cons_self)⟩

theorem decimal_inj {n k : Nat} (h : decimal n = decimal k) : n = k := by
  have hvalue : Nat.ofDigitChars 10 (decimal n) 0 = Nat.ofDigitChars 10 (decimal k) 0 := by rw [h]
  rwa [decimal, decimal, Nat.ofDigitChars_ten_toDigits, Nat.ofDigitChars_ten_toDigits] at hvalue

theorem takeWhile_decimal_append (n : Nat) (hu : EndsNumber u) :
    (decimal n ++ u).takeWhile Char.isDigit = decimal n := by
  have hrest : u.takeWhile Char.isDigit = [] := by
    cases u with
    | nil => rfl
    | cons c u => exact List.takeWhile_cons_of_neg (by simp [hu c u rfl])
  rw [List.takeWhile_append_of_pos fun c => isDigit_of_mem_decimal, hrest, List.append_nil]

/-- **Numbers are readable:** all digits at the beginning belong to the number. -/
theorem readable_decimal (n : Nat) : Readable decimal n := by
  intro k u v hu hv h
  have hdigits : decimal n = decimal k := by
    rw [← takeWhile_decimal_append n hu, h, takeWhile_decimal_append k hv]
  rw [hdigits, List.append_cancel_left_eq] at h
  exact ⟨decimal_inj hdigits, h⟩

/-! ## Lists -/

section Lists

variable {c d : Char} {s t : List Char}

/-- Items that follow each other without separators are readable, if none begins with a digit and
what stands behind them does not begin like one. -/
theorem flatMap_inj (hl : ∀ a ∈ l, Readable write a) (hdigit : ∀ a s, EndsNumber (write a ++ s))
    (hu : EndsNumber u) (hv : EndsNumber v) (hnone : ∀ a r, u ≠ write a ++ r ∧ v ≠ write a ++ r)
    (h : l.flatMap write ++ u = m.flatMap write ++ v) : l = m ∧ u = v := by
  have hends : ∀ (k : List α) w, EndsNumber w → EndsNumber (k.flatMap write ++ w) := by
    intro k w hw
    cases k with
    | nil => exact hw
    | cons a k =>
        rw [List.flatMap_cons, List.append_assoc]
        exact hdigit a _
  induction l generalizing m with
  | nil =>
      cases m with
      | nil => exact ⟨rfl, h⟩
      | cons b m =>
          rw [List.flatMap_nil, List.nil_append, List.flatMap_cons, List.append_assoc] at h
          exact absurd h (hnone b _).1
  | cons a l ih =>
      cases m with
      | nil =>
          rw [List.flatMap_nil, List.nil_append, List.flatMap_cons, List.append_assoc] at h
          exact absurd h.symm (hnone a _).2
      | cons b m =>
          rw [List.flatMap_cons, List.flatMap_cons, List.append_assoc, List.append_assoc] at h
          obtain ⟨rfl, hrest⟩ := hl a List.mem_cons_self b _ _ (hends l u hu) (hends m v hv) h
          obtain ⟨rfl, huv⟩ := ih (fun a ha => hl a (List.mem_cons_of_mem _ ha)) hrest
          exact ⟨rfl, huv⟩

/-- **Codes are readable one by one,** up to what closes the text. -/
theorem codes_inj (hcode : ∀ a b u v, write a ++ u = write b ++ v → a = b ∧ u = v)
    (hclosing : ∀ a s r, write a ++ s ≠ d :: r)
    (h : l.flatMap write ++ d :: u = m.flatMap write ++ d :: v) : l = m ∧ u = v := by
  induction l generalizing m with
  | nil =>
      cases m with
      | nil => exact ⟨rfl, (List.cons.inj h).2⟩
      | cons b m =>
          rw [List.flatMap_cons, List.append_assoc] at h
          exact absurd h.symm (hclosing b _ _)
  | cons a l ih =>
      cases m with
      | nil =>
          rw [List.flatMap_cons, List.append_assoc] at h
          exact absurd h (hclosing a _ _)
      | cons b m =>
          rw [List.flatMap_cons, List.flatMap_cons, List.append_assoc, List.append_assoc] at h
          obtain ⟨rfl, hrest⟩ := hcode _ _ _ _ h
          obtain ⟨rfl, huv⟩ := ih hrest
          exact ⟨rfl, huv⟩

/-- The items behind separators, up to what closes the list. -/
theorem flatMap_separator_inj (hc : c.isDigit = false) (hd : d.isDigit = false) (hcd : c ≠ d)
    (hl : ∀ a ∈ l, Readable write a)
    (h : (l.flatMap fun a => c :: s ++ write a) ++ (d :: t ++ u) =
      (m.flatMap fun a => c :: s ++ write a) ++ (d :: t ++ v)) : l = m ∧ u = v := by
  have hclosing : ∀ w a r, d :: t ++ w ≠ c :: s ++ write a ++ r := by
    intro w a r heq
    exact hcd (List.cons.inj heq).1.symm
  have hitems : ∀ a ∈ l, Readable (fun a => c :: s ++ write a) a := by
    intro a ha b w w' hw hw' heq
    rw [List.append_assoc, List.append_assoc] at heq
    exact hl a ha b w w' hw hw' (List.append_cancel_left heq)
  obtain ⟨hlm, huv⟩ := flatMap_inj hitems (fun a _ => endsNumber_cons hc) (endsNumber_cons hd)
    (endsNumber_cons hd) (fun a r => ⟨hclosing u a r, hclosing v a r⟩) h
  exact ⟨hlm, (List.append_right_inj (d :: t)).1 huv⟩

/-- **Items with separators between them are readable one by one,** if there are any. -/
theorem join_inj (hc : c.isDigit = false) (hd : d.isDigit = false) (hcd : c ≠ d)
    (hl : ∀ a ∈ l, Readable write a) (hlne : l ≠ []) (hmne : m ≠ [])
    (h : join (c :: s) (l.map write) ++ (d :: t ++ u) =
      join (c :: s) (m.map write) ++ (d :: t ++ v)) : l = m ∧ u = v := by
  obtain ⟨a, l, rfl⟩ := List.exists_cons_of_ne_nil hlne
  obtain ⟨b, m, rfl⟩ := List.exists_cons_of_ne_nil hmne
  -- with a separator before the first item, too, all items are alike
  refine flatMap_separator_inj (s := s) (t := t) hc hd hcd hl ?_
  rw [List.map_cons, List.map_cons, join_cons, join_cons, List.flatMap_map, List.flatMap_map] at h
  rw [List.flatMap_cons, List.flatMap_cons, List.append_assoc (c :: s), List.append_assoc (c :: s),
    List.append_assoc (c :: s), List.append_assoc (c :: s), h]

/-- **With or without items,** if none begins like what closes the list. -/
theorem closed_join_inj (hc : c.isDigit = false) (hd : d.isDigit = false) (hcd : c ≠ d)
    (hl : ∀ a ∈ l, Readable write a) (hitem : ∀ a s r, write a ++ s ≠ d :: r)
    (h : join (c :: s) (l.map write) ++ (d :: t ++ u) =
      join (c :: s) (m.map write) ++ (d :: t ++ v)) : l = m ∧ u = v := by
  have hfirst : ∀ (a : α) k w, join (c :: s) ((a :: k).map write) ++ (d :: t ++ w) =
      write a ++ ((k.flatMap fun b => c :: s ++ write b) ++ (d :: t ++ w)) := by
    intro a k w
    rw [List.map_cons, join_cons, List.flatMap_map, List.append_assoc]
  cases l with
  | nil =>
      cases m with
      | nil => exact ⟨rfl, List.append_cancel_left h⟩
      | cons b m =>
          rw [hfirst] at h
          exact absurd h.symm (hitem b _ _)
  | cons a l =>
      cases m with
      | nil =>
          rw [hfirst] at h
          exact absurd h (hitem a _ _)
      | cons b m =>
          exact join_inj hc hd hcd hl (List.cons_ne_nil a l) (List.cons_ne_nil b m) h

end Lists

/-- **Items between braces are readable,** if none begins with the closing brace. -/
theorem braced_inj (hl : ∀ a ∈ l, Readable write a)
    (hbrace : ∀ a s r, write a ++ s ≠ '\x7d' :: r)
    (h : braced (l.map write) ++ u = braced (m.map write) ++ v) : l = m ∧ u = v := by
  have hjoin : ∀ (k : List α) w, braced (k.map write) ++ w =
      '\x7b' :: (join [',', ' '] (k.map write) ++ (['\x7d'] ++ w)) := by
    intro k w
    simp [braced]
  rw [hjoin, hjoin, List.cons.injEq] at h
  exact closed_join_inj (by decide) (by decide) (by decide) hl hbrace h.2

end Text
end Determinization
