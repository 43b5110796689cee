import Determinization.Proofs.Automaton.Determinism
import Determinization.Proofs.Comparison.Words
import Determinization.Proofs.Readability.Quoted

/-!
# The first difference of two machines

Two machines are compared in two ways.  One answers whether they agree on all words below a bound,
the other names a difference.  Both look at words over the alphabet only, and that is enough: no
machine accepts a word with a character outside its alphabet (`Machine.spells_of_accepts`), so
machines with one alphabet agree on all other words.

* `Machine.sameLanguage_eq_true_iff`: what the answer says of words of any characters.
* `Machine.difference?_eq_none_iff`: there is no difference to name exactly if the answer is yes.
* `Machine.isFirstDifference_difference?`: what is named is the first word on which the machines
  differ, and the machine that accepts it.

A difference is shown by its message, and there the word stands between quotes and the machines are
called `a` and `b`.  So the message is where the word and the machine are looked for; they can be
read off it, and nothing else can (`acceptedText_inj`).

The word comes first in the shortlex order of characters, not only among the words that were looked
at but among all words.  Those that were not looked at are longer, or no machine accepts them.
-/

namespace Determinization

/-! ## Words that machines accept -/

/-- A deterministic machine accepts from a state only words over its alphabet. -/
theorem Dfa.spells_of_acceptsFrom {d : Dfa} {s : State} {w : List Char}
    (hd : d.automaton.Consistent) (h : d.acceptsFrom s w = true) :
    d.automaton.alphabet.Spells w := by
  induction w generalizing s with
  | nil => exact Alphabet.spells_nil
  | cons c w ih =>
      by_cases hc : c ∈ d.automaton.alphabet
      · unfold acceptsFrom at h
        split at h
        · exact Alphabet.spells_cons.2 ⟨hc, ih h⟩
        · cases h
      · rw [acceptsFrom, successor?_of_not_mem hd hc] at h
        cases h

namespace Machine

variable {m n : Machine} {w : List Char} {bound : Nat} {δ : Difference}

/-- **Machines accept only words over their alphabets.** -/
theorem spells_of_accepts (hm : m.automaton.Consistent) (h : m.accepts w = true) :
    m.alphabet.Spells w := by
  cases m with
  | nfa a => exact (Automaton.accepts_iff.1 h).1
  | dfa d => exact Dfa.spells_of_acceptsFrom hm h

/-- Words on which machines with one alphabet differ are over that alphabet. -/
theorem spells_of_accepts_ne (hm : m.automaton.Consistent) (hn : n.automaton.Consistent)
    (halphabet : m.alphabet = n.alphabet) (h : m.accepts w ≠ n.accepts w) :
    m.alphabet.Spells w := by
  cases hw : m.accepts w with
  | true => exact spells_of_accepts hm hw
  | false =>
      rw [hw] at h
      rw [halphabet]
      exact spells_of_accepts hn (Bool.eq_true_of_not_eq_false h.symm)

/-! ## The comparison that answers yes or no -/

/-- **The answer is yes exactly if the alphabets are equal and both machines accept the same words
below the bound.** -/
theorem sameLanguage_eq_true_iff (hm : m.automaton.Consistent) (hn : n.automaton.Consistent) :
    m.sameLanguage n bound = true ↔
      m.alphabet = n.alphabet ∧ ∀ w, w.length < bound → m.accepts w = n.accepts w := by
  unfold sameLanguage
  by_cases halphabet : m.alphabet = n.alphabet
  · rw [if_neg (not_not.2 halphabet), and_iff_right halphabet, allWords_eq_all, List.all_eq_true]
    simp only [beq_iff_eq]
    constructor
    · intro h w hlength
      by_contra hne
      have hspells := spells_of_accepts_ne hm hn halphabet hne
      exact hne (h w (mem_wordsBelow.2 ⟨hlength, hspells⟩))
    · intro h w hw
      exact h w (mem_wordsBelow.1 hw).1
  · rw [if_pos halphabet]
    simp [halphabet]

/-! ## The comparison that names a difference -/

theorem differenceOn?_eq_none_iff : m.differenceOn? n w = none ↔ m.accepts w = n.accepts w := by
  unfold differenceOn?
  cases m.accepts w <;> cases n.accepts w <;> simp

/-- A text that says of a word that the machine with one name accepts it and the machine with
another does not. -/
def acceptedText (w : List Char) (accepting rejecting : Char) : List Char :=
  Text.quoted w ++ " is accepted by automaton \x60".toList ++ [accepting] ++
    "\x60 but not by automaton \x60".toList ++ [rejecting] ++
      "\x60. Thus their languages are not equal.".toList

theorem message_onlyLeft (w : List Char) :
    (Difference.onlyLeft w).message = acceptedText w 'a' 'b' := by
  simp only [acceptedText, List.append_assoc]
  rfl

theorem message_onlyRight (w : List Char) :
    (Difference.onlyRight w).message = acceptedText w 'b' 'a' := by
  simp only [acceptedText, List.append_assoc]
  rfl

/-- **The word and both names can be read off the text.** -/
theorem acceptedText_inj {v : List Char} {x y x' y' : Char}
    (h : acceptedText v x y = acceptedText w x' y') : v = w ∧ x = x' ∧ y = y' := by
  simp only [acceptedText, List.append_assoc] at h
  obtain ⟨hword, hnames⟩ := Text.quoted_inj h
  obtain ⟨hx, hrest⟩ := List.append_inj (List.append_cancel_left hnames) rfl
  obtain ⟨hy, -⟩ := List.append_inj (List.append_cancel_left hrest) rfl
  exact ⟨hword, (List.cons.inj hx).1, (List.cons.inj hy).1⟩

/-- The text names the word and the one machine that accepts it.  The first machine is called `a`
and the second one `b`. -/
def DiffersBy (m n : Machine) (w text : List Char) : Prop :=
  (text = acceptedText w 'a' 'b' ∧ m.accepts w = true ∧ n.accepts w = false) ∨
    (text = acceptedText w 'b' 'a' ∧ m.accepts w = false ∧ n.accepts w = true)

theorem differsBy_of_differenceOn? (h : m.differenceOn? n w = some δ) :
    DiffersBy m n w δ.message := by
  unfold differenceOn? at h
  split at h
  · rename_i hm hn
    cases h
    exact Or.inl ⟨message_onlyLeft w, hm, hn⟩
  · rename_i hm hn
    cases h
    exact Or.inr ⟨message_onlyRight w, hm, hn⟩
  · cases h

/-- However the text is understood, it says this. -/
theorem DiffersBy.unique {text v : List Char} {x y : Char} (h : DiffersBy m n w text)
    (htext : text = acceptedText v x y) :
    v = w ∧ (x = 'a' ∧ m.accepts w = true ∨ x = 'b' ∧ n.accepts w = true) := by
  rcases h with ⟨rfl, hm, -⟩ | ⟨rfl, -, hn⟩
  · obtain ⟨rfl, rfl, -⟩ := acceptedText_inj htext
    exact ⟨rfl, Or.inl ⟨rfl, hm⟩⟩
  · obtain ⟨rfl, rfl, -⟩ := acceptedText_inj htext
    exact ⟨rfl, Or.inr ⟨rfl, hn⟩⟩

theorem difference?_of_alphabet_eq (halphabet : m.alphabet = n.alphabet) (bound : Nat) :
    m.difference? n bound = findWord? m.alphabet.toList bound (m.differenceOn? n) := by
  rw [difference?, if_neg (not_not.2 halphabet)]

/-- **There is nothing to name exactly if the answer is yes.** -/
theorem difference?_eq_none_iff :
    m.difference? n bound = none ↔ m.sameLanguage n bound = true := by
  by_cases halphabet : m.alphabet = n.alphabet
  · rw [difference?_of_alphabet_eq halphabet, findWord?_eq_none_iff, sameLanguage,
      if_neg (not_not.2 halphabet), allWords_eq_all, List.all_eq_true]
    simp only [differenceOn?_eq_none_iff, beq_iff_eq]
  · rw [difference?, sameLanguage, if_pos halphabet, if_pos halphabet]
    simp

/-- The text names a word below the bound and the machine that accepts it, and that word is before
all other words on which the machines differ: it is shorter, or as long and before them in the order
of the alphabet. -/
structure IsFirstDifference (m n : Machine) (bound : Nat) (w text : List Char) : Prop where
  length_lt : w.length < bound
  differsBy : DiffersBy m n w text
  first : ∀ v, m.accepts v ≠ n.accepts v → v = w ∨ List.Shortlex Ordered.Lt w v
  /-- The text cannot be understood to name another word or the other machine. -/
  unique : ∀ v x y, text = acceptedText v x y →
    v = w ∧ (x = 'a' ∧ m.accepts w = true ∨ x = 'b' ∧ n.accepts w = true)

/-- **What is named is the first word on which the machines differ.** -/
theorem isFirstDifference_difference? (hm : m.automaton.Consistent) (hn : n.automaton.Consistent)
    (halphabet : m.alphabet = n.alphabet) (h : m.difference? n bound = some δ) :
    ∃ w, IsFirstDifference m n bound w δ.message := by
  rw [difference?_of_alphabet_eq halphabet] at h
  obtain ⟨w, hw, htest, hfirst⟩ := exists_first_of_findWord? m.alphabet.increasing h
  have hlength : w.length < bound := (mem_wordsBelow.1 hw).1
  have hdiffers := differsBy_of_differenceOn? htest
  refine ⟨w, hlength, hdiffers, fun v hv => ?_, fun v x y => hdiffers.unique⟩
  by_cases hbelow : v.length < bound
  · have hspells := spells_of_accepts_ne hm hn halphabet hv
    exact hfirst v (mem_wordsBelow.2 ⟨hbelow, hspells⟩) fun hnone =>
      hv (differenceOn?_eq_none_iff.1 hnone)
  · -- words that are too long were not looked at, but they come later
    exact Or.inr (List.Shortlex.of_length_lt (by omega))

theorem difference?_of_alphabet_ne (halphabet : m.alphabet ≠ n.alphabet) (bound : Nat) :
    m.difference? n bound = some (.alphabets m.alphabet n.alphabet) := if_pos halphabet

/-- **The two comparisons agree, and the difference that is named is the first one.**  This is so
for machines of either kind, for every bound and every alphabet.  Different alphabets are both
shown. -/
theorem comparisons_agree (hm : m.automaton.Consistent) (hn : n.automaton.Consistent)
    (bound : Nat) :
    (m.sameLanguage n bound = true ↔
        m.alphabet = n.alphabet ∧ ∀ w, w.length < bound → m.accepts w = n.accepts w) ∧
      ((m.difference? n bound).isSome = true ↔ m.sameLanguage n bound = false) ∧
      (m.alphabet = n.alphabet → ∀ δ, m.difference? n bound = some δ →
        ∃ w, IsFirstDifference m n bound w δ.message) ∧
      (m.alphabet ≠ n.alphabet → ∃ δ, m.difference? n bound = some δ ∧
        δ.message = "Alphabets are not the same: ".toList ++ m.alphabet.text ++
          " and ".toList ++ n.alphabet.text) := by
  refine ⟨sameLanguage_eq_true_iff hm hn, ?_, fun halphabet δ =>
    isFirstDifference_difference? hm hn halphabet, fun halphabet =>
    ⟨_, difference?_of_alphabet_ne halphabet bound, rfl⟩⟩
  rw [← Bool.not_eq_true, ← difference?_eq_none_iff, ← ne_eq, Option.isSome_iff_ne_none]

end Machine

namespace Automaton

/-- A deterministic automaton that accepts the words which end in the first of two characters. -/
def lastIsA : Automaton :=
  .ofParts [.simple 0, .simple 1] (SortedSet.ofList ['a', 'b'])
    [⟨.simple 0, .char 'a', .simple 1⟩, ⟨.simple 0, .char 'b', .simple 0⟩,
      ⟨.simple 1, .char 'a', .simple 1⟩, ⟨.simple 1, .char 'b', .simple 0⟩]
    (.simple 0) [.simple 1]

theorem build_lastIsA :
    build [.simple 0, .simple 1] (SortedSet.ofList ['a', 'b'])
      [⟨.simple 0, .char 'a', .simple 1⟩, ⟨.simple 0, .char 'b', .simple 0⟩,
        ⟨.simple 1, .char 'a', .simple 1⟩, ⟨.simple 1, .char 'b', .simple 0⟩]
      (.simple 0) [.simple 1] = .ok lastIsA := rfl

end Automaton

namespace Machine

open Automaton (tangle lastIsA)

/-- The two accept the same words below a bound of 2 and differ on several words below a bound of 4;
the one that is named comes first. -/
theorem comparisons_agree_tangle :
    tangle.Consistent ∧ lastIsA.Consistent ∧
      (nfa tangle).difference? (dfa ⟨lastIsA⟩) 4 = some (.onlyRight ['a', 'a']) ∧
      (nfa tangle).sameLanguage (dfa ⟨lastIsA⟩) 4 = false ∧
      IsFirstDifference (nfa tangle) (dfa ⟨lastIsA⟩) 4 ['a', 'a']
        ("\"aa\" is accepted by automaton \x60b\x60 but not by automaton \x60a\x60. " ++
          "Thus their languages are not equal.").toList ∧
      ∀ w, w.length < 2 → tangle.accepts w = Dfa.accepts ⟨lastIsA⟩ w := by
  have htangle := Automaton.consistent_of_build Automaton.build_tangle
  have hlast := Automaton.consistent_of_build Automaton.build_lastIsA
  have hdifference : (nfa tangle).difference? (dfa ⟨lastIsA⟩) 4 =
      some (.onlyRight ['a', 'a']) := by decide +kernel
  have hsame : (nfa tangle).sameLanguage (dfa ⟨lastIsA⟩) 2 = true := by decide +kernel
  obtain ⟨-, hsome, hfirst, -⟩ := comparisons_agree (m := nfa tangle) (n := dfa ⟨lastIsA⟩)
    htangle hlast 4
  obtain ⟨w, hw⟩ := hfirst rfl _ hdifference
  obtain ⟨rfl, -⟩ := hw.unique _ _ _ (message_onlyRight ['a', 'a'])
  refine ⟨htangle, hlast, hdifference, hsome.1 (by rw [hdifference]; rfl), hw, ?_⟩
  exact ((comparisons_agree (m := nfa tangle) (n := dfa ⟨lastIsA⟩) htangle hlast 2).1.1 hsame).2

end Machine
end Determinization
