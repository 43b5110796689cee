import Determinization.Proofs.Automaton.Minimality
import Determinization.Proofs.Encoding.Conversion

/-!
# What canonical forms tell apart

Two functional automata have the same canonical form exactly when they are isomorphic
(`canonicalize_same_iff`).  One direction is that names do not matter to the numbering of functional
automata; the other is that the canonical form is itself isomorphic to the automaton, so that
automata with the same canonical form are both isomorphic to it.  The states of canonical forms are
numbered, so their written forms are equal exactly when they are.

For reduced deterministic machines the accepted words decide everything: if these are the same, the
machines differ in names only, and so their canonical forms are written alike
(`encode_canonicalize_eq_of_accepts_eq`).
-/

namespace Determinization

namespace Automaton

variable {a b : Automaton}

/-- Automata with the same canonical form differ in names only. -/
theorem exists_renaming_of_same_canonicalize (ha : a.Consistent) (hb : b.Consistent)
    (hsizea : a.reachable.size ≤ 2 ^ 32) (hsizeb : b.reachable.size ≤ 2 ^ 32)
    (h : a.canonicalize.same b.canonicalize = true) : ∃ R, Renaming R a b :=
  have hforms := (renaming_canonicalize ha hsizea).trans (renaming_of_same h)
  ⟨_, hforms.trans (renaming_canonicalize hb hsizeb).symm⟩

/-- **Canonical forms decide isomorphism of functional automata**, and so do their written forms.
Deterministic machines are functional. -/
theorem canonicalize_same_iff :
    (∀ d : Dfa, d.automaton.Consistent → d.automaton.Deterministic → d.automaton.Functional) ∧
      ∀ a b : Automaton, a.Consistent → b.Consistent → a.Functional → b.Functional →
        a.reachable.size < 2 ^ 32 → b.reachable.size < 2 ^ 32 →
          (a.canonicalize.same b.canonicalize = true ↔
            a.alphabet = b.alphabet ∧ ∃ f, Isomorphism f a b) ∧
          (a.canonicalize.encode = b.canonicalize.encode ↔
            a.canonicalize.same b.canonicalize = true) := by
  refine ⟨fun d hd hdet => hdet.functional hd, fun a b ha hb hfa hfb hsizea hsizeb => ⟨?_, ?_⟩⟩
  · rw [← exists_renaming_iff]
    constructor
    · exact exists_renaming_of_same_canonicalize ha hb (Nat.le_of_lt hsizea) (Nat.le_of_lt hsizeb)
    · rintro ⟨R, h⟩
      rw [h.canonicalize_eq hfa hfb ha hb]
      exact same_refl _
  · exact encode_eq_encode_iff ((isImage_canonicalize ha).consistent ha)
      ((isImage_canonicalize hb).consistent hb) (isNumbered_canonicalize ha)
      (isNumbered_canonicalize hb)

/-- An automaton with a silent transition in which each symbol leads to one state at most. -/
def detour : Automaton :=
  ofParts [.simple 3, .simple 8, .simple 1] (SortedSet.ofList ['a', 'b'])
    [⟨.simple 3, .char 'a', .simple 8⟩, ⟨.simple 8, .epsilon, .simple 1⟩,
      ⟨.simple 1, .char 'b', .simple 3⟩, ⟨.simple 1, .char 'a', .simple 1⟩] (.simple 8) [.simple 3]

/-- The same automaton with its states in another order, and a state that is not reachable. -/
def detourRenamed : Automaton :=
  ofParts [.simple 0, .simple 2, .simple 5, .simple 9] (SortedSet.ofList ['a', 'b'])
    [⟨.simple 2, .char 'a', .simple 5⟩, ⟨.simple 5, .epsilon, .simple 9⟩,
      ⟨.simple 9, .char 'b', .simple 2⟩, ⟨.simple 9, .char 'a', .simple 9⟩,
      ⟨.simple 0, .char 'a', .simple 2⟩] (.simple 5) [.simple 2, .simple 0]

theorem parse_detour : parse "3 8 1/a b/3,a,8;8,,1;1,b,3;1,a,1/8/3".toList = .ok detour := by
  cbv

theorem parse_detourRenamed :
    parse "0 2 5 9/a b/2,a,5;5,,9;9,b,2;9,a,9;0,a,2/5/2 0".toList = .ok detourRenamed := by
  cbv

theorem functional_detour : detour.Functional := by decide +kernel

theorem functional_detourRenamed : detourRenamed.Functional := by decide +kernel

theorem canonicalize_same_iff_detour :
    (detour.Functional ∧ detourRenamed.Functional) ∧
      (∃ f, Isomorphism f detour detourRenamed) ∧
      detour.canonicalize.encode = detourRenamed.canonicalize.encode :=
  have h := canonicalize_same_iff.2 detour detourRenamed (consistent_of_parse parse_detour)
    (consistent_of_parse parse_detourRenamed) functional_detour functional_detourRenamed
    (by decide +kernel) (by decide +kernel)
  have hsame : detour.canonicalize.same detourRenamed.canonicalize = true := by decide +kernel
  ⟨⟨functional_detour, functional_detourRenamed⟩, (h.1.1 hsame).2, h.2.2 hsame⟩

end Automaton

namespace Dfa

variable {d e : Dfa}

/-- **Reduced machines are identified by the written form of their canonical form.**  If two of them
over one alphabet accept the same words, these written forms are equal. -/
theorem encode_canonicalize_eq_of_accepts_eq (hd : d.automaton.Consistent)
    (hddet : d.automaton.Deterministic) (he : e.automaton.Consistent)
    (hedet : e.automaton.Deterministic) (halphabet : d.automaton.alphabet = e.automaton.alphabet)
    (haccepts : ∀ w, d.accepts w = e.accepts w) (hdred : d.Reduced) (hered : e.Reduced) :
    d.canonicalize.automaton.encode = e.canonicalize.automaton.encode := by
  have hrenaming := renaming_of_accepts_eq hd hddet he hedet halphabet haccepts hdred hered
  have hforms : d.automaton.canonicalize = e.automaton.canonicalize :=
    hrenaming.canonicalize_eq (hddet.functional hd) (hedet.functional he) hd he
  rw [canonicalize, canonicalize, hforms]

/-- The words in which the number of `a` is divisible by three, with a state to spare. -/
def thirds : Dfa where
  automaton :=
    .ofParts [.simple 4, .simple 7, .simple 2, .simple 9] (SortedSet.ofList ['a', 'b'])
      [⟨.simple 4, .char 'a', .simple 7⟩, ⟨.simple 4, .char 'b', .simple 4⟩,
        ⟨.simple 7, .char 'a', .simple 2⟩, ⟨.simple 7, .char 'b', .simple 7⟩,
        ⟨.simple 2, .char 'a', .simple 4⟩, ⟨.simple 2, .char 'b', .simple 2⟩,
        ⟨.simple 9, .char 'a', .simple 9⟩, ⟨.simple 9, .char 'b', .simple 4⟩] (.simple 4)
      [.simple 4, .simple 9]

theorem parse_thirds :
    Automaton.parse "4 7 2 9/a b/4,a,7;4,b,4;7,a,2;7,b,7;2,a,4;2,b,2;9,a,9;9,b,4/4/4 9".toList =
      .ok thirds.automaton := by
  cbv

theorem deterministic_thirds : thirds.automaton.Deterministic :=
  Automaton.determinismFault?_eq_none_iff.1 (by decide +kernel)

theorem reduced_thirds : thirds.Reduced := reduced_of_words [[], ['a']] (by decide +kernel)

theorem reduced_toDfa_thirds : (thirds.automaton.toDfa .lifo).Reduced :=
  reduced_of_words [[], ['a']] (by decide +kernel)

theorem encode_canonicalize_eq_of_accepts_eq_thirds :
    (thirds.Reduced ∧ (thirds.automaton.toDfa .lifo).Reduced) ∧
      thirds.canonicalize.automaton.encode =
        (thirds.automaton.toDfa .lifo).canonicalize.automaton.encode :=
  have hcons := Automaton.consistent_of_parse parse_thirds
  have hcons' := Automaton.consistent_toDfa hcons .lifo
  have hdet' := Automaton.deterministic_toDfa hcons .lifo
  have haccepts : ∀ w, thirds.accepts w = (thirds.automaton.toDfa .lifo).accepts w := by
    intro w
    rw [accepts_eq_accepts hcons deterministic_thirds, accepts_eq_accepts hcons' hdet',
      Automaton.accepts_automaton_toDfa hcons]
  ⟨⟨reduced_thirds, reduced_toDfa_thirds⟩,
    encode_canonicalize_eq_of_accepts_eq hcons deterministic_thirds hcons' hdet' rfl haccepts
      reduced_thirds reduced_toDfa_thirds⟩

end Dfa
end Determinization
