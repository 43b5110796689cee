import Determinization.Proofs.Automaton.Alike
import Determinization.Proofs.Encoding.Written
import Mathlib

/-!
# Conversion from end to end

`convert` reads an automaton, determinizes it, numbers the states and writes the result.  It fails
exactly where reading fails, with the same error, and what it writes can be read again.

What is read again is the canonical form of the deterministic automaton, because numbered states
keep their numbers.  So the properties of the result are collected along the way: determinizing
gives a deterministic automaton whose states are all reachable; numbering and writing take images
that tell the states apart, which keep both properties; and every step gives an automaton that is
alike, hence one that accepts the same words.
-/

namespace Determinization
namespace Automaton

variable {a : Automaton} {order : WorklistOrder}

theorem reachable_toDfa (ha : a.Consistent) (order : WorklistOrder) :
    (a.toDfa order).automaton.reachable = (a.toDfa order).automaton.states :=
  reachable_eq_states (consistent_toDfa ha order) fun _ => reachable_of_mem_states_toDfa ha

theorem isNumbered_canonicalize (ha : a.Consistent) : a.canonicalize.isNumbered = true := by
  refine List.all_eq_true.2 fun t ht => ?_
  obtain ⟨n, -, rfl⟩ := (mem_states_canonicalize ha).1 ht
  rfl

/-- The deterministic automaton with numbers for states. -/
def standard (a : Automaton) : Automaton := (a.toDfa .fifo).canonicalize.automaton

section Standard

variable (ha : a.Consistent)

include ha

theorem isImage_standard :
    IsImage (a.toDfa .fifo).automaton.Reachable (a.toDfa .fifo).automaton.canonicalName
      (a.toDfa .fifo).automaton a.standard :=
  isImage_canonicalize (consistent_toDfa ha .fifo)

theorem consistent_standard : a.standard.Consistent :=
  (isImage_standard ha).consistent (consistent_toDfa ha .fifo)

theorem isNumbered_standard : a.standard.isNumbered = true :=
  isNumbered_canonicalize (consistent_toDfa ha .fifo)

/-- Writing the numbers and reading them back changes no state. -/
theorem writtenName_standard {s : State} (hs : s ∈ a.standard.states) :
    a.standard.writtenName s = s :=
  writtenName_of_isNumbered (isNumbered_standard ha) hs

theorem tellsApart_writtenName_standard :
    TellsApart (· ∈ a.standard.states) a.standard.writtenName :=
  tellsApart_writtenName_of_isNumbered (isNumbered_standard ha)

theorem mem_states_standard {s : State} :
    s ∈ a.standard.states ↔
      ∃ n < (a.toDfa .fifo).automaton.states.size, s = .simple (UInt32.ofNat n) := by
  rw [← reachable_toDfa ha]
  exact mem_states_canonicalize (consistent_toDfa ha .fifo)

theorem mem_states_written_standard {s : State} :
    s ∈ a.standard.written.states ↔
      ∃ n < (a.toDfa .fifo).automaton.states.size, s = .simple (UInt32.ofNat n) := by
  rw [← mem_states_standard ha, (isImage_written (consistent_standard ha)).mem_states]
  constructor
  · rintro ⟨t, ht, rfl⟩
    rwa [writtenName_standard ha ht]
  · intro hs
    exact ⟨s, hs, (writtenName_standard ha hs).symm⟩

theorem initial_written_standard : a.standard.written.initial = .simple 0 := by
  have hinitial : a.standard.initial = .simple 0 := rfl
  have hmem := (consistent_standard ha).initial_mem
  rw [(isImage_written (consistent_standard ha)).initial_eq, writtenName_standard ha hmem, hinitial]

variable (hsize : (a.toDfa .fifo).automaton.states.size < 2 ^ 32)

include hsize

theorem tellsApart_canonicalName_toDfa :
    TellsApart (a.toDfa .fifo).automaton.Reachable (a.toDfa .fifo).automaton.canonicalName := by
  refine tellsApart_canonicalName (consistent_toDfa ha .fifo) ?_
  rw [reachable_toDfa ha]
  exact Nat.le_of_lt hsize

theorem deterministic_standard : a.standard.Deterministic :=
  (isImage_standard ha).deterministic (tellsApart_canonicalName_toDfa ha hsize)
    (deterministic_toDfa ha .fifo) (consistent_toDfa ha .fifo).mem_states_of_reachable

theorem reachable_of_mem_states_standard {s : State} (hs : s ∈ a.standard.states) :
    a.standard.Reachable s :=
  (isImage_standard ha).reachable (tellsApart_canonicalName_toDfa ha hsize) id hs

theorem deterministic_written_standard : a.standard.written.Deterministic :=
  (isImage_written (consistent_standard ha)).deterministic (tellsApart_writtenName_standard ha)
    (deterministic_standard ha hsize) id

theorem reachable_written_standard :
    a.standard.written.reachable = a.standard.written.states := by
  have himage := isImage_written (consistent_standard ha)
  refine reachable_eq_states (himage.consistent (consistent_standard ha)) fun s hs => ?_
  exact himage.reachable (tellsApart_writtenName_standard ha)
    (reachable_of_mem_states_standard ha hsize) hs

/-- **From end to end the automaton stays alike.** -/
theorem alike_written_standard : Alike a a.standard.written :=
  have hnumbered := (isImage_standard ha).alike (tellsApart_canonicalName_toDfa ha hsize)
  have hwritten := (isImage_written (consistent_standard ha)).alike
    (tellsApart_writtenName_standard ha)
  ((alike_toDfa ha .fifo).trans hnumbered).trans hwritten

end Standard

/-- **Automata that are alike have the same numbered deterministic automaton.**  The worklist
orders need not be the same either. -/
theorem Alike.canonicalize_toDfa_eq {b : Automaton} (h : Alike a b) (ha : a.Consistent)
    (hb : b.Consistent) (order order' : WorklistOrder) :
    (a.toDfa order).canonicalize = (b.toDfa order').canonicalize := by
  have hfunctional : ∀ {c : Automaton}, c.Consistent → ∀ order,
      (c.toDfa order).automaton.Functional := fun hc order =>
    (deterministic_toDfa hc order).functional (consistent_toDfa hc order)
  have heq := (h.renaming_toDfa ha hb order order').canonicalize_eq (hfunctional ha order)
    (hfunctional hb order') (consistent_toDfa ha order) (consistent_toDfa hb order')
  rw [Dfa.canonicalize, Dfa.canonicalize, heq]

/-! ## Conversion -/

variable {text result : List Char}

theorem convert_of_parse (h : parse text = .ok a) : convert text = .ok a.standard.encode := by
  rw [convert, h]
  rfl

/-- A result of conversion is converted to itself. -/
theorem convert_encode_standard (ha : a.Consistent)
    (hsize : (a.toDfa .fifo).automaton.states.size < 2 ^ 32) :
    convert a.standard.encode = .ok a.standard.encode := by
  have hcons := consistent_standard ha
  have heq : a.standard.written.standard = a.standard :=
    congrArg Dfa.automaton ((alike_written_standard ha hsize).symm.canonicalize_toDfa_eq
      ((isImage_written hcons).consistent hcons) ha .fifo .fifo)
  rw [convert_of_parse (parse_encode hcons), heq]

/-- The second automaton is deterministic, its states are the first numbers and all reachable, and
it has the alphabet of the first and accepts the same words. -/
structure IsConversion (a m : Automaton) : Prop where
  deterministic : ∃ d, Dfa.ofAutomaton m = .ok d
  mem_states : ∀ s, s ∈ m.states ↔
    ∃ n < (a.toDfa .fifo).automaton.states.size, s = .simple (UInt32.ofNat n)
  initial_eq : m.initial = .simple 0
  reachable_eq : m.reachable = m.states
  alphabet_eq : m.alphabet = a.alphabet
  accepts_eq : ∀ w, m.accepts w = a.accepts w

theorem isConversion_written_standard (ha : a.Consistent)
    (hsize : (a.toDfa .fifo).automaton.states.size < 2 ^ 32) :
    IsConversion a a.standard.written where
  deterministic := ⟨_, Dfa.ofAutomaton_eq_ok_iff.2 ⟨deterministic_written_standard ha hsize, rfl⟩⟩
  mem_states _ := mem_states_written_standard ha
  initial_eq := initial_written_standard ha
  reachable_eq := reachable_written_standard ha hsize
  alphabet_eq := (alike_written_standard ha hsize).alphabet_eq.symm
  accepts_eq w := ((alike_written_standard ha hsize).accepts_eq w).symm

/-- **Conversion from end to end.**  A text is converted exactly when it can be read, with the same
error otherwise.  The result can be read in turn: it is a deterministic automaton with the numbers
from zero on for states, all of them reachable, and it accepts what the automaton accepts that was
converted.  The names of the states have to suffice for this. -/
theorem parse_convert (text : List Char) :
    (∀ e, convert text = .error e ↔ parse text = .error e) ∧
      ((∃ result, convert text = .ok result) ↔ ∃ a, parse text = .ok a) ∧
      ∀ result, convert text = .ok result → ∃ a, parse text = .ok a ∧
        ((a.toDfa .fifo).automaton.states.size < 2 ^ 32 →
          ∃ m, parse result = .ok m ∧ IsConversion a m) := by
  cases hparse : parse text with
  | error e => simp [convert, hparse]
  | ok a =>
      have ha := consistent_of_parse hparse
      rw [convert_of_parse hparse]
      refine ⟨fun e => by simp, by simp, ?_⟩
      intro result hresult
      obtain rfl := Except.ok.inj hresult
      refine ⟨a, rfl, fun hsize => ?_⟩
      exact ⟨a.standard.written, parse_encode (consistent_standard ha),
        isConversion_written_standard ha hsize⟩

/-- An automaton for the words that end in `a`. -/
def lastLetter : Automaton :=
  ofParts [.simple 0, .simple 1, .simple 2] (SortedSet.ofList ['a', 'b'])
    [⟨.simple 0, .char 'a', .simple 0⟩, ⟨.simple 0, .char 'b', .simple 0⟩,
      ⟨.simple 0, .char 'a', .simple 1⟩, ⟨.simple 1, .epsilon, .simple 2⟩] (.simple 0) [.simple 2]

theorem parse_lastLetter :
    parse "0 1 2 / b a / 0,a,0; 0,b,0; 0,a,1; 1,,2 / 0 / 2".toList = .ok lastLetter := by
  cbv

theorem convert_lastLetter :
    convert "0 1 2 / b a / 0,a,0; 0,b,0; 0,a,1; 1,,2 / 0 / 2".toList =
      .ok "0 1/a b/0,a,1;0,b,0;1,a,1;1,b,0/0/1".toList := by
  cbv

theorem size_toDfa_lastLetter : (lastLetter.toDfa .fifo).automaton.states.size < 2 ^ 32 := by
  decide +kernel

theorem parse_convert_lastLetter :
    (lastLetter.toDfa .fifo).automaton.states.size < 2 ^ 32 ∧
      ∃ m, parse "0 1/a b/0,a,1;0,b,0;1,a,1;1,b,0/0/1".toList = .ok m ∧
        IsConversion lastLetter m := by
  obtain ⟨a, hparse, h⟩ := (parse_convert _).2.2 _ convert_lastLetter
  obtain rfl : lastLetter = a := Except.ok.inj (parse_lastLetter.symm.trans hparse)
  exact ⟨size_toDfa_lastLetter, h size_toDfa_lastLetter⟩

end Automaton
end Determinization
