import Determinization.Proofs.Automaton.Increasing
import Determinization.Proofs.Encoding.Written

/-!
# Automata with composite states, written and read back

As soon as one state is composite, every state is written as its position in the order of states,
those with a number of their own included.  Keeping these numbers would not do: a numbered state
would be taken for the one whose position it happens to be.

What is read back is the automaton with positions for states (`exists_parse_encode_positions`).
Positions come in the order of the states, however deeply the sets are nested, and so the canonical
form is that of the automaton that was written, whether or not it is functional.
-/

namespace Determinization
namespace Automaton

variable {a : Automaton}

/-- One composite state is enough for all states to be written as positions. -/
theorem writtenName_of_isComposite (h : ∃ s ∈ a.states, s.isComposite = true) :
    a.writtenName = numbered a.states.toList := by
  have hnumbered : a.isNumbered ≠ true := by
    intro hall
    obtain ⟨s, hs, hcomposite⟩ := h
    obtain ⟨n, rfl⟩ := exists_simple_of_isNumbered hall hs
    cases hcomposite
  funext s
  exact writtenName_of_not_isNumbered hnumbered

/-- **An automaton with a composite state is read back from its encoding with positions for states,
which increase with the states and leave the canonical form as it was.** -/
theorem exists_parse_encode_positions (ha : a.Consistent)
    (hcomposite : ∃ s ∈ a.states, s.isComposite = true) (hsize : a.states.size < 2 ^ 32) :
    ∃ b, parse a.encode = .ok b ∧
      (∀ s ∈ a.states, ∃ n, numbered a.states.toList s = .simple n ∧
        n.toNat = a.states.toList.idxOf s) ∧
      Increasing (· ∈ a.states) (numbered a.states.toList) ∧
      IsImage (· ∈ a.states) (numbered a.states.toList) a b ∧
      b.canonicalize = a.canonicalize := by
  have hincreasing : Increasing (· ∈ a.states) (numbered a.states.toList) :=
    increasing_numbered (Nat.le_of_lt hsize)
  have himage : IsImage (· ∈ a.states) (numbered a.states.toList) a a.written :=
    writtenName_of_isComposite hcomposite ▸ isImage_written ha
  exact ⟨a.written, parse_encode ha,
    fun s => exists_numbered_eq_simple (Nat.le_of_lt hsize), hincreasing, himage,
    himage.canonicalize_eq hincreasing ha⟩

/-- An automaton with numbered states that are not written as their numbers, nested sets among its
states, several targets on one symbol and a silent move. -/
def medley : Automaton :=
  ofParts
    [.ofMembers [.dead, .simple 1], .simple 2, .dead, .ofMembers [.simple 0], .simple 1]
    (SortedSet.ofList ['b', 'a'])
    [⟨.simple 2, .char 'a', .ofMembers [.simple 1, .dead]⟩, ⟨.simple 2, .char 'a', .simple 1⟩,
      ⟨.simple 2, .char 'a', .dead⟩, ⟨.dead, .epsilon, .ofMembers [.simple 0]⟩,
      ⟨.simple 1, .char 'b', .simple 2⟩]
    (.simple 2) [.dead, .simple 1]

theorem consistent_medley : medley.Consistent :=
  (build_eq_ok_iff.1 (rfl : build
    [.ofMembers [.dead, .simple 1], .simple 2, .dead, .ofMembers [.simple 0], .simple 1]
    (SortedSet.ofList ['b', 'a'])
    [⟨.simple 2, .char 'a', .ofMembers [.simple 1, .dead]⟩, ⟨.simple 2, .char 'a', .simple 1⟩,
      ⟨.simple 2, .char 'a', .dead⟩, ⟨.dead, .epsilon, .ofMembers [.simple 0]⟩,
      ⟨.simple 1, .char 'b', .simple 2⟩]
    (.simple 2) [.dead, .simple 1] = .ok medley)).1

/-- The states come in the order `1`, `2`, `∅`, `{0}`, `{1, ∅}`: `2` is read as `1`, although there
was another state `1`. -/
theorem exists_parse_encode_positions_medley :
    (∃ s ∈ medley.states, s.isComposite = true) ∧ medley.states.size < 2 ^ 32 ∧
      ∃ b, parse medley.encode = .ok b ∧ b.initial = .simple 1 ∧
        ⟨.simple 1, .char 'a', .simple 4⟩ ∈ b.transitions ∧
        b.canonicalize = medley.canonicalize := by
  have hcomposite : ∃ s ∈ medley.states, s.isComposite = true :=
    ⟨.dead, by decide +kernel, rfl⟩
  have hsize : medley.states.size < 2 ^ 32 := by decide +kernel
  obtain ⟨b, hparse, -, -, himage, hcanonical⟩ :=
    exists_parse_encode_positions consistent_medley hcomposite hsize
  refine ⟨hcomposite, hsize, b, hparse, ?_, ?_, hcanonical⟩
  · rw [himage.initial_eq]
    decide +kernel
  · refine himage.mem_transitions.2
      ⟨.simple 2, .char 'a', .ofMembers [.simple 1, .dead], ?_, ?_, ?_⟩
    all_goals decide +kernel

end Automaton
end Determinization
