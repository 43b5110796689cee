import Determinization.Proofs.Automaton.Determinism
import Determinization.Proofs.Automaton.Renaming

/-!
# Machines without superfluous distinctions

A deterministic machine is reduced when any two of its reachable states are told apart by some word
that is accepted from one of them and not from the other.  The words accepted from a state are all
that there is to a state of such a machine.  So where two reduced machines over one alphabet accept
the same words, each reachable state of the one has exactly one partner in the other from which the
same words are accepted (`Partners`), and this correspondence is a renaming
(`renaming_of_accepts_eq`).

The argument is about single steps.  The words accepted from the target of a transition on `c` are
the words `w` for which `c :: w` is accepted from its source (`acceptsFrom_cons_of_mem`), so the
targets of partners on one character are partners again (`Partners.exists_target`).  Being reduced
is needed only for partners to be unique.
-/

namespace Determinization
namespace Dfa

variable {d e : Dfa} {s s' t : State} {c : Char} {x : Symbol}

theorem acceptsFrom_cons_of_mem (hd : d.automaton.Consistent) (hdet : d.automaton.Deterministic)
    (h : ⟨s, .char c, t⟩ ∈ d.automaton.transitions) (w : List Char) :
    d.acceptsFrom s (c :: w) = d.acceptsFrom t w := by
  have hc : c ∈ d.automaton.alphabet := (Alphabet.admits_char _ c).1 (hd.label_mem _ h)
  obtain ⟨u, hu⟩ := (Automaton.deterministic_iff.1 hdet).2 s (hd.source_mem _ h) c hc
  obtain rfl := (hu t).1 h
  rw [acceptsFrom, successor?_of_targets hu]

/-- Any two reachable states are told apart by a word that is accepted from only one of them. -/
def Reduced (d : Dfa) : Prop :=
  ∀ ⦃s t⦄, d.automaton.Reachable s → d.automaton.Reachable t → s ≠ t →
    ∃ w, d.acceptsFrom s w ≠ d.acceptsFrom t w

theorem Reduced.eq_of_acceptsFrom_eq (h : d.Reduced) (hs : d.automaton.Reachable s)
    (ht : d.automaton.Reachable t) (heq : ∀ w, d.acceptsFrom s w = d.acceptsFrom t w) : s = t := by
  by_contra hne
  obtain ⟨w, hw⟩ := h hs ht hne
  exact hw (heq w)

/-- A machine is reduced if some of the given words tell apart the states that its search for
reachable states finds. -/
theorem reduced_of_words (words : List (List Char))
    (h : ∀ s ∈ d.automaton.reachable.toList, ∀ t ∈ d.automaton.reachable.toList, s ≠ t →
      ∃ w ∈ words, d.acceptsFrom s w ≠ d.acceptsFrom t w) : d.Reduced := by
  intro s t hs ht hne
  obtain ⟨w, -, hw⟩ :=
    h s (Automaton.mem_reachable.2 hs) t (Automaton.mem_reachable.2 ht) hne
  exact ⟨w, hw⟩

/-- The states are reachable in their machines, and the same words are accepted from them. -/
structure Partners (d e : Dfa) (s s' : State) : Prop where
  reachable_left : d.automaton.Reachable s
  reachable_right : e.automaton.Reachable s'
  acceptsFrom_eq : ∀ w, d.acceptsFrom s w = e.acceptsFrom s' w

theorem Partners.symm (h : Partners d e s s') : Partners e d s' s :=
  ⟨h.reachable_right, h.reachable_left, fun w => (h.acceptsFrom_eq w).symm⟩

/-- **A step from a state is a step from its partner, and it leads to partners again.** -/
theorem Partners.exists_target (h : Partners d e s s') (hd : d.automaton.Consistent)
    (hddet : d.automaton.Deterministic) (he : e.automaton.Consistent)
    (hedet : e.automaton.Deterministic) (halphabet : d.automaton.alphabet = e.automaton.alphabet)
    (hstep : ⟨s, x, t⟩ ∈ d.automaton.transitions) :
    ∃ t', Partners d e t t' ∧ ⟨s', x, t'⟩ ∈ e.automaton.transitions := by
  cases x with
  | epsilon => exact absurd hstep hddet.not_silent
  | char c =>
      have hc : c ∈ e.automaton.alphabet :=
        halphabet ▸ (Alphabet.admits_char _ c).1 (hd.label_mem _ hstep)
      have hs' : s' ∈ e.automaton.states := he.mem_states_of_reachable h.reachable_right
      obtain ⟨t', ht'⟩ := (Automaton.deterministic_iff.1 hedet).2 s' hs' c hc
      have hstep' : ⟨s', .char c, t'⟩ ∈ e.automaton.transitions := (ht' t').2 rfl
      refine ⟨t', ⟨h.reachable_left.target hstep, h.reachable_right.target hstep', ?_⟩, hstep'⟩
      intro w
      rw [← acceptsFrom_cons_of_mem hd hddet hstep, ← acceptsFrom_cons_of_mem he hedet hstep']
      exact h.acceptsFrom_eq (c :: w)

/-- **Reduced machines that accept the same words differ in names only.** -/
theorem renaming_of_accepts_eq (hd : d.automaton.Consistent) (hddet : d.automaton.Deterministic)
    (he : e.automaton.Consistent) (hedet : e.automaton.Deterministic)
    (halphabet : d.automaton.alphabet = e.automaton.alphabet)
    (haccepts : ∀ w, d.accepts w = e.accepts w) (hdred : d.Reduced) (hered : e.Reduced) :
    Automaton.Renaming (Partners d e) d.automaton e.automaton where
  unique := by
    constructor
    · intro s s' t hs ht
      refine hdred.eq_of_acceptsFrom_eq hs.reachable_left ht.reachable_left fun w => ?_
      rw [hs.acceptsFrom_eq, ht.acceptsFrom_eq]
    · intro s t t' ht ht'
      refine hered.eq_of_acceptsFrom_eq ht.reachable_right ht'.reachable_right fun w => ?_
      rw [← ht.acceptsFrom_eq, ← ht'.acceptsFrom_eq]
  alphabet_eq := halphabet
  initial := ⟨d.automaton.reachable_initial, e.automaton.reachable_initial, haccepts⟩
  forth h hstep := h.exists_target hd hddet he hedet halphabet hstep
  back h hstep' := by
    obtain ⟨t, ht, hstep⟩ := h.symm.exists_target he hedet hd hddet halphabet.symm hstep'
    exact ⟨t, ht.symm, hstep⟩
  accepting_iff := by
    intro s s' h
    have hempty := h.acceptsFrom_eq []
    rwa [acceptsFrom, acceptsFrom, Automaton.isAccepting, Automaton.isAccepting,
      decide_eq_decide] at hempty

end Dfa
end Determinization
