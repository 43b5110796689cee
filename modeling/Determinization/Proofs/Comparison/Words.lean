import Determinization.Comparison
import Mathlib.Data.List.Shortlex

/-!
# The words below a bound

`wordsBelow` enumerates words.  What it enumerates is said by `mem_wordsBelow`: the words over the
given characters that are shorter than the bound, and no others.  In which order it does so is said
by `pairwise_wordsBelow`: if the characters are listed along a relation, the words come in the
shortlex order of that relation, shorter ones first and words of one length lexicographically.

Both statements are made for one length first, and there for the product of copies of the list of
characters: the words that begin with one character are enumerated together, and the recursion of
`cartesianProduct` is the induction.

Looking for a word goes along this enumeration and stops, so the word that is found comes before all
others for which the test says something (`exists_first_of_findWord?`).
-/

namespace Determinization

variable {α : Type} {characters : List Char} {r : Char → Char → Prop} {n bound : Nat}
  {w : List Char} {test : List Char → Option α}

/-! ## Which words there are -/

theorem mem_cartesianProduct_replicate :
    w ∈ cartesianProduct (List.replicate n characters) ↔
      w.length = n ∧ ∀ c ∈ w, c ∈ characters := by
  induction n generalizing w with
  | zero =>
      rw [List.replicate_zero, cartesianProduct, List.mem_singleton, List.length_eq_zero_iff]
      constructor
      · rintro rfl
        simp
      · exact And.left
  | succ n ih =>
      simp only [List.replicate_succ, cartesianProduct, List.mem_flatMap, List.mem_map, ih]
      constructor
      · rintro ⟨c, hc, v, ⟨rfl, hv⟩, rfl⟩
        exact ⟨List.length_cons, List.forall_mem_cons.2 ⟨hc, hv⟩⟩
      · rintro ⟨hlength, hw⟩
        obtain ⟨c, v, rfl⟩ := List.exists_cons_of_length_eq_add_one hlength
        obtain ⟨hc, hv⟩ := List.forall_mem_cons.1 hw
        exact ⟨c, hc, v, ⟨Nat.succ.inj hlength, hv⟩, rfl⟩

theorem mem_wordsOfLength :
    w ∈ wordsOfLength characters n ↔ w.length = n ∧ ∀ c ∈ w, c ∈ characters := by
  rw [wordsOfLength_eq, mem_cartesianProduct_replicate]

/-- **The words below a bound are the shorter words over the characters.** -/
theorem mem_wordsBelow :
    w ∈ wordsBelow characters bound ↔ w.length < bound ∧ ∀ c ∈ w, c ∈ characters := by
  simp only [wordsBelow, List.mem_flatMap, List.mem_range, mem_wordsOfLength]
  constructor
  · rintro ⟨n, hn, rfl, hw⟩
    exact ⟨hn, hw⟩
  · rintro ⟨hlength, hw⟩
    exact ⟨w.length, hlength, rfl, hw⟩

/-- A larger bound adds the words of one more length, at the end. -/
theorem wordsBelow_succ (characters : List Char) (bound : Nat) :
    wordsBelow characters (bound + 1) =
      wordsBelow characters bound ++ wordsOfLength characters bound := by
  rw [wordsBelow, List.range_succ, List.flatMap_append, List.flatMap_singleton, wordsBelow]

/-! ## In which order they come -/

theorem pairwise_cartesianProduct {lists : List (List Char)} (h : ∀ l ∈ lists, l.Pairwise r) :
    (cartesianProduct lists).Pairwise (List.Lex r) := by
  induction lists with
  | nil => exact List.pairwise_singleton _ _
  | cons l lists ih =>
      obtain ⟨hl, hlists⟩ := List.forall_mem_cons.1 h
      refine List.pairwise_flatMap.2 ⟨fun c _ => ?_, hl.imp fun {c d} hcd => ?_⟩
      · exact List.pairwise_map.2 ((ih hlists).imp List.Lex.cons)
      · intro v hv w hw
        obtain ⟨_, -, rfl⟩ := List.mem_map.1 hv
        obtain ⟨_, -, rfl⟩ := List.mem_map.1 hw
        exact List.Lex.rel hcd

theorem pairwise_wordsOfLength (h : characters.Pairwise r) (n : Nat) :
    (wordsOfLength characters n).Pairwise (List.Lex r) := by
  rw [wordsOfLength_eq]
  refine pairwise_cartesianProduct fun l hl => ?_
  rwa [List.eq_of_mem_replicate hl]

/-- **The words below a bound come in shortlex order.** -/
theorem pairwise_wordsBelow (h : characters.Pairwise r) (bound : Nat) :
    (wordsBelow characters bound).Pairwise (List.Shortlex r) := by
  refine List.pairwise_flatMap.2 ⟨fun n _ => ?_, List.pairwise_lt_range.imp fun {m n} hmn => ?_⟩
  · refine (pairwise_wordsOfLength h n).imp_of_mem fun {v w} hv hw hlex => ?_
    have hlength : v.length = w.length :=
      (mem_wordsOfLength.1 hv).1.trans (mem_wordsOfLength.1 hw).1.symm
    exact List.Shortlex.of_lex hlength hlex
  · intro v hv w hw
    refine List.Shortlex.of_length_lt ?_
    rw [(mem_wordsOfLength.1 hv).1, (mem_wordsOfLength.1 hw).1]
    exact hmn

/-! ## Every word once -/

/-- In a list without repetitions, what is listed later has the larger position. -/
theorem pairwise_idxOf_lt (h : characters.Nodup) :
    characters.Pairwise fun c d => characters.idxOf c < characters.idxOf d := by
  refine List.pairwise_iff_getElem.2 fun i j hi hj hij => ?_
  rwa [h.idxOf_getElem i hi, h.idxOf_getElem j hj]

/-- The list has the words over some characters that are shorter than a bound, each of them once,
shorter ones first and words of one length in the lexicographic order of positions. -/
structure Enumerates (characters : List Char) (bound : Nat) (words : List (List Char)) :
    Prop where
  mem_iff : ∀ w, w ∈ words ↔ w.length < bound ∧ ∀ c ∈ w, c ∈ characters
  nodup : words.Nodup
  shorter_first : words.Pairwise fun v w => v.length ≤ w.length
  lexicographic : words.Pairwise fun v w => v.length = w.length →
    List.Lex (fun c d => characters.idxOf c < characters.idxOf d) v w

/-- **The enumeration is complete, in order and free of repetitions,** if no character is listed
twice. -/
theorem enumerates_wordsBelow (h : characters.Nodup) (bound : Nat) :
    Enumerates characters bound (wordsBelow characters bound) := by
  have hordered := pairwise_wordsBelow (pairwise_idxOf_lt h) bound
  have hlex : (wordsBelow characters bound).Pairwise fun v w => v.length = w.length →
      List.Lex (fun c d => characters.idxOf c < characters.idxOf d) v w :=
    hordered.imp fun hvw hlength => (List.shortlex_iff_lex hlength).1 hvw
  refine ⟨fun w => mem_wordsBelow, hlex.imp ?_, hordered.imp fun hvw => ?_, hlex⟩
  · -- a word does not come before itself
    rintro v _ hvw rfl
    exact List.lex_irrefl (fun c => Nat.lt_irrefl (characters.idxOf c)) v (hvw rfl)
  · rcases List.shortlex_def.1 hvw with hlength | ⟨hlength, -⟩
    · exact Nat.le_of_lt hlength
    · exact Nat.le_of_eq hlength

/-- The positions decide, and not the order of characters. -/
theorem enumerates_wordsBelow_ba :
    ['b', 'a'].Nodup ∧ Enumerates ['b', 'a'] 3
      [[], ['b'], ['a'], ['b', 'b'], ['b', 'a'], ['a', 'b'], ['a', 'a']] :=
  have hnodup : ['b', 'a'].Nodup := by decide
  ⟨hnodup, enumerates_wordsBelow hnodup 3⟩

/-! ## Looking for a word -/

theorem findWord?_eq_none_iff :
    findWord? characters bound test = none ↔ ∀ w ∈ wordsBelow characters bound, test w = none := by
  rw [findWord?_eq_findSome?, List.findSome?_eq_none_iff]

/-- **The word that is found is the first one for which the test says something.** -/
theorem exists_first_of_findWord? (h : characters.Pairwise r) {x : α}
    (hfind : findWord? characters bound test = some x) :
    ∃ w ∈ wordsBelow characters bound, test w = some x ∧
      ∀ v ∈ wordsBelow characters bound, test v ≠ none → v = w ∨ List.Shortlex r w v := by
  rw [findWord?_eq_findSome?] at hfind
  obtain ⟨before, w, rest, hsplit, hw, hbefore⟩ := List.findSome?_eq_some_iff.1 hfind
  have hordered := pairwise_wordsBelow h bound
  rw [hsplit] at hordered ⊢
  refine ⟨w, by simp, hw, fun v hv htest => ?_⟩
  rcases List.mem_append.1 hv with hv | hv
  · exact absurd (hbefore v hv) htest
  · rcases List.mem_cons.1 hv with rfl | hv
    · exact Or.inl rfl
    · exact Or.inr ((List.pairwise_cons.1 (List.pairwise_append.1 hordered).2.1).1 v hv)

end Determinization
