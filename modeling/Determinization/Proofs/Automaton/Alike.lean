import Determinization.Proofs.Automaton.Image
import Determinization.Proofs.Automaton.Powerset

/-!
# Automata that words cannot tell apart

Determinizing forgets everything about an automaton except which words lead to the same set and
which words are accepted.  Two automata that agree on these two things are `Alike`, and this is an
equivalence.

* A renaming of the reachable part gives an automaton that is alike (`Renaming.alike`), and so does
  an image in which no name is shared (`IsImage.alike`).
* So does determinizing: the set that a word leads to in the result has one member, the state that
  stands for the set of the word (`alike_toDfa`).
* Automata that are alike have the same deterministic automaton up to the names of its states
  (`Alike.renaming_toDfa`): the state after a word in one is the state after the word in the other.

The three together say that no sequence of renamings and determinizations changes what the
deterministic automaton is, its names aside.  Pruning is a renaming that keeps every name; it
changes nothing of the deterministic automaton at all (`toDfa_removeUnreachable`).
-/

namespace Determinization
namespace Automaton

variable {a b c : Automaton} {order : WorklistOrder} {t : State} {v w : List Char}

/-- The automata have the same alphabet, accept the same words, and the same words lead to equal
sets. -/
structure Alike (a b : Automaton) : Prop where
  alphabet_eq : a.alphabet = b.alphabet
  after_eq_iff : ∀ {v w}, a.alphabet.Spells v → a.alphabet.Spells w →
    (a.after v = a.after w ↔ b.after v = b.after w)
  accepts_eq : ∀ w, a.accepts w = b.accepts w

namespace Alike

theorem refl (a : Automaton) : Alike a a := ⟨rfl, fun _ _ => Iff.rfl, fun _ => rfl⟩

theorem symm (h : Alike a b) : Alike b a where
  alphabet_eq := h.alphabet_eq.symm
  after_eq_iff hv hw := (h.after_eq_iff (h.alphabet_eq ▸ hv) (h.alphabet_eq ▸ hw)).symm
  accepts_eq w := (h.accepts_eq w).symm

theorem trans (hab : Alike a b) (hbc : Alike b c) : Alike a c where
  alphabet_eq := hab.alphabet_eq.trans hbc.alphabet_eq
  after_eq_iff hv hw := (hab.after_eq_iff hv hw).trans
    (hbc.after_eq_iff (hab.alphabet_eq ▸ hv) (hab.alphabet_eq ▸ hw))
  accepts_eq w := (hab.accepts_eq w).trans (hbc.accepts_eq w)

end Alike

/-- **Renaming gives an automaton that is alike.** -/
theorem Renaming.alike {R : State → State → Prop} (h : Renaming R a b) : Alike a b where
  alphabet_eq := h.alphabet_eq
  after_eq_iff _ _ := ⟨h.after_eq_of_after_eq, h.symm.after_eq_of_after_eq⟩
  accepts_eq := h.accepts_eq

theorem IsImage.alike {part : State → Prop} {name : State → State} (h : IsImage part name a b)
    (hname : TellsApart part name) : Alike a b := (h.isRenaming hname).alike

/-! ## Determinizing -/

/-- A word over the alphabet leads to one state of the deterministic automaton. -/
theorem mem_after_toDfa (ha : a.Consistent) (hw : a.alphabet.Spells w) :
    t ∈ (a.toDfa order).automaton.after w ↔ t = a.afterState w := by
  rw [mem_after, leads_toDfa_iff ha, and_iff_right hw]

/-- **Determinizing gives an automaton that is alike.** -/
theorem alike_toDfa (ha : a.Consistent) (order : WorklistOrder) :
    Alike a (a.toDfa order).automaton where
  alphabet_eq := rfl
  after_eq_iff := by
    intro v w hv hw
    constructor
    · intro heq
      refine SortedSet.ext fun t => ?_
      rw [mem_after_toDfa ha hv, mem_after_toDfa ha hw, afterState_eq_iff.2 heq]
    · intro heq
      have hmem : a.afterState v ∈ (a.toDfa order).automaton.after v :=
        (mem_after_toDfa ha hv).2 rfl
      rw [heq, mem_after_toDfa ha hw] at hmem
      exact afterState_eq_iff.1 hmem
  accepts_eq w := (accepts_automaton_toDfa ha order w).symm

/-- **Automata that are alike have the same deterministic automaton, names aside.**  States are
paired that the same word leads to. -/
theorem Alike.renaming_toDfa (h : Alike a b) (ha : a.Consistent) (hb : b.Consistent)
    (order order' : WorklistOrder) :
    Renaming (fun s s' => ∃ w, a.alphabet.Spells w ∧ s = a.afterState w ∧ s' = b.afterState w)
      (a.toDfa order).automaton (b.toDfa order').automaton where
  unique := by
    constructor
    · rintro s t u ⟨v, hv, rfl, rfl⟩ ⟨w, hw, rfl, heq⟩
      rw [afterState_eq_iff] at heq ⊢
      exact (h.after_eq_iff hv hw).2 heq
    · rintro s t u ⟨v, hv, rfl, rfl⟩ ⟨w, hw, heq, rfl⟩
      rw [afterState_eq_iff] at heq ⊢
      exact (h.after_eq_iff hv hw).1 heq
  alphabet_eq := h.alphabet_eq
  initial := ⟨[], Alphabet.spells_nil, rfl, rfl⟩
  forth := by
    rintro s s' x t ⟨w, hw, rfl, rfl⟩ ht
    obtain ⟨c, hc, rfl, rfl⟩ := (mem_transitions_afterState_iff ha hw).1 ht
    refine ⟨b.afterState (w ++ [c]), ⟨w ++ [c], ?_, rfl, rfl⟩, ?_⟩
    · exact Alphabet.spells_append_singleton.2 ⟨hw, hc⟩
    · rw [h.alphabet_eq] at hw hc
      exact (mem_transitions_afterState_iff hb hw).2 ⟨c, hc, rfl, rfl⟩
  back := by
    rintro s s' x t ⟨w, hw, rfl, rfl⟩ ht
    have hw' : b.alphabet.Spells w := h.alphabet_eq ▸ hw
    obtain ⟨c, hc, rfl, rfl⟩ := (mem_transitions_afterState_iff hb hw').1 ht
    rw [← h.alphabet_eq] at hc
    refine ⟨a.afterState (w ++ [c]), ⟨w ++ [c], ?_, rfl, rfl⟩, ?_⟩
    · exact Alphabet.spells_append_singleton.2 ⟨hw, hc⟩
    · exact (mem_transitions_afterState_iff ha hw).2 ⟨c, hc, rfl, rfl⟩
  accepting_iff := by
    rintro s s' ⟨w, hw, rfl, rfl⟩
    have hw' : b.alphabet.Spells w := h.alphabet_eq ▸ hw
    rw [afterState_mem_accepting_iff_accepts ha hw, afterState_mem_accepting_iff_accepts hb hw',
      h.accepts_eq]

/-! ## Pruning -/

/-- Pruning changes none of the sets that words lead to. -/
theorem after_removeUnreachable (a : Automaton) (w : List Char) :
    a.removeUnreachable.after w = a.after w := by
  have h := (isImage_removeUnreachable a).isRenaming tellsApart_id
  refine SortedSet.ext fun s => ?_
  constructor
  · intro hs
    obtain ⟨r, hr, rfl⟩ := h.symm.exists_of_reachable ⟨w, mem_after.1 hs⟩
    exact (h.mem_after_iff ⟨hr, rfl⟩).2 hs
  · intro hs
    exact (h.mem_after_iff ⟨⟨w, mem_after.1 hs⟩, rfl⟩).1 hs

/-- **Pruning first makes the very same deterministic automaton**, with the same composite states
and transitions, in whatever order the worklists are worked off. -/
theorem toDfa_removeUnreachable (ha : a.Consistent) (order order' : WorklistOrder) :
    a.removeUnreachable.toDfa order = a.toDfa order' := by
  refine toDfa_eq_of_after_eq ((isImage_removeUnreachable a).consistent ha) ha rfl
    (after_removeUnreachable a) (fun w m hm => ?_) order order'
  rw [after_removeUnreachable, mem_after] at hm
  exact mem_accepting_removeUnreachable.trans (and_iff_left ⟨w, hm⟩)

end Automaton
end Determinization
