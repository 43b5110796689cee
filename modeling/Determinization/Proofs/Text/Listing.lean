import Determinization.Text.Listing

/-!
# Joining and cutting

Cutting a text at a separator undoes joining items with it, if they do not contain the separator,
and joining undoes cutting in any case.
-/

namespace Determinization
namespace Text

variable {separator : Char} {items : List (List Char)} {s : List Char}

@[simp] theorem join_nil (separator : List Char) : join separator [] = [] := rfl

theorem join_cons (separator : List Char) (p : List Char) (ps : List (List Char)) :
    join separator (p :: ps) = p ++ ps.flatMap fun q => separator ++ q := by
  induction ps generalizing p with
  | nil => simp [join]
  | cons q ps ih =>
      rw [join, List.intercalate_cons_cons, ← join, ih, List.flatMap_cons]
      simp only [List.append_assoc]

theorem pieces_eq_splitOn (separator : Char) (s : List Char) :
    pieces separator s = s.splitOn separator := by
  induction s with
  | nil => rfl
  | cons c s ih =>
      obtain ⟨p, ps, hsplit⟩ := List.exists_cons_of_ne_nil (List.splitOn_ne_nil separator s)
      rw [pieces, ih, List.splitOn_cons_eq_if_modifyHead, hsplit]
      simp only [beq_iff_eq, List.modifyHead_cons]

/-- Cutting at a separator undoes joining with it. -/
theorem pieces_join (hitems : ∀ p ∈ items, separator ∉ p) (hne : items ≠ []) :
    pieces separator (join [separator] items) = items := by
  rw [pieces_eq_splitOn, join, List.splitOn_intercalate separator hitems hne]

/-- Joining with a separator undoes cutting at it. -/
theorem join_pieces (separator : Char) (s : List Char) :
    join [separator] (pieces separator s) = s := by
  rw [pieces_eq_splitOn, join, List.intercalate_splitOn]

end Text
end Determinization
