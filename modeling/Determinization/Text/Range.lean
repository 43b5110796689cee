/-!
# Ranges of code points

Properties of characters are given by tables: lists of ranges in ascending order, with both ends of
each range included.
-/

namespace Determinization
namespace Text

/-- Ranges of code points in ascending order, with both ends included. -/
abbrev Ranges := List (Nat × Nat)

/-- Does a code point lie in one of the ranges?  The search ends at the first range above it. -/
def inRanges : Ranges → Nat → Bool
  | [], _ => false
  | (first, last) :: rest, n =>
      if n < first then false else decide (n ≤ last) || inRanges rest n

/-- Are the ranges in ascending order, with a gap between neighbours? -/
def Ranges.areAscending : Ranges → Bool
  | [] => true
  | [(first, last)] => decide (first ≤ last)
  | (first, last) :: (first', last') :: rest =>
      decide (first ≤ last) && decide (last + 1 < first') && areAscending ((first', last') :: rest)

theorem Ranges.lt_of_areAscending {r : Nat × Nat} {rest : Ranges}
    (h : Ranges.areAscending (r :: rest) = true) : ∀ s ∈ rest, r.1 < s.1 := by
  induction rest generalizing r with
  | nil => simp
  | cons r' rest ih =>
    simp only [areAscending, Bool.and_eq_true, decide_eq_true_eq] at h
    intro s hs
    rcases List.mem_cons.1 hs with rfl | hs
    · omega
    · have := ih h.2 s hs
      omega

theorem Ranges.areAscending_tail {r : Nat × Nat} {rest : Ranges}
    (h : Ranges.areAscending (r :: rest) = true) : Ranges.areAscending rest = true := by
  cases rest with
  | nil => rfl
  | cons r' rest =>
    simp only [areAscending, Bool.and_eq_true] at h
    exact h.2

/-- Ending the search early changes nothing where the ranges ascend. -/
theorem inRanges_eq_true_iff {ranges : Ranges} (h : ranges.areAscending = true) (n : Nat) :
    inRanges ranges n = true ↔ ∃ r ∈ ranges, r.1 ≤ n ∧ n ≤ r.2 := by
  induction ranges with
  | nil => simp [inRanges]
  | cons r rest ih =>
    have hlt := Ranges.lt_of_areAscending h
    have ih := ih (Ranges.areAscending_tail h)
    simp only [inRanges, List.mem_cons, exists_eq_or_imp]
    split
    · rename_i hn
      refine ⟨fun h => absurd h (by simp), ?_⟩
      rintro (⟨h, -⟩ | ⟨s, hs, h, -⟩)
      · omega
      · have := hlt s hs
        omega
    · rename_i hn
      rw [Bool.or_eq_true, decide_eq_true_eq, ih]
      constructor
      · rintro (h | h)
        · exact .inl ⟨by omega, h⟩
        · exact .inr h
      · rintro (⟨-, h⟩ | h)
        · exact .inl h
        · exact .inr h

end Text
end Determinization
