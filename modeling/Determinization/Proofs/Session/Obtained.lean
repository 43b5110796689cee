import Determinization.Proofs.Session.Soundness

/-!
# Machines, however they are obtained

A machine comes from a text or from parts, or it is made of another machine: by the subset
construction, by numbering or pruning the states, by finding out or forgetting that it is
deterministic.  `Machine.Obtained` closes what blueprints make under all of these, in any order and
any number of times.

Nothing is asked of the number of states on the way, with one exception.  A deterministic machine
can be numbered only if there is a number for each of its reachable states; otherwise two of them
would get the same name, and one state would have the moves of both.

Whatever is obtained is sound (`Machine.Obtained.sound`).  So a machine that is taken for
deterministic has one target for each declared state and character, and following the first target
that is found is as good as following all of them (`Dfa.accepts_eq_of_obtained`).
-/

namespace Determinization

/-- The machine is made from a blueprint, or of machines that are obtained. -/
inductive Machine.Obtained : Machine → Prop where
  | made {b : Blueprint} {m : Machine} (h : b.machine = .ok m) : Obtained m
  | determinized {m : Machine} (h : Obtained m) (order : WorklistOrder) :
      Obtained (.dfa (m.automaton.toDfa order))
  | numbered {m : Machine} (h : Obtained m)
      (enough : m.isDfa = true → m.automaton.reachable.size ≤ 2 ^ 32) : Obtained m.canonicalize
  | pruned {m : Machine} (h : Obtained m) : Obtained m.removeUnreachable
  /-- The machine was checked and found to be deterministic. -/
  | checked {m : Machine} {d : Dfa} (h : Obtained m)
      (check : Dfa.ofAutomaton m.automaton = .ok d) : Obtained (.dfa d)
  /-- It does not count any more that the machine is deterministic. -/
  | forgotten {m : Machine} (h : Obtained m) : Obtained (.nfa m.automaton)

namespace Machine

variable {m : Machine}

/-- **Every machine that is obtained is sound.** -/
theorem Obtained.sound (h : Obtained m) : m.Sound := by
  induction h with
  | made h => exact Blueprint.sound h
  | determinized _ order ih =>
      exact sound_dfa (Automaton.consistent_toDfa ih.consistent order)
        (Automaton.deterministic_toDfa ih.consistent order)
  | @numbered m _ enough ih =>
      have himage := Automaton.isImage_canonicalize ih.consistent
      rw [← m.automaton_canonicalize] at himage
      have hkind := m.isDfa_canonicalize
      exact ih.of_isImage himage ih.consistent.mem_states_of_reachable
        (fun hdfa => Automaton.tellsApart_canonicalName ih.consistent (enough (hkind ▸ hdfa)))
        fun hdfa => ih.deterministic (hkind ▸ hdfa)
  | @pruned m _ ih =>
      have himage := Automaton.isImage_removeUnreachable m.automaton
      rw [← m.automaton_removeUnreachable] at himage
      have hkind := m.isDfa_removeUnreachable
      exact ih.of_isImage himage ih.consistent.mem_states_of_reachable
        (fun _ => Automaton.tellsApart_id) fun hdfa => ih.deterministic (hkind ▸ hdfa)
  | checked _ check ih =>
      obtain ⟨hdet, rfl⟩ := Dfa.ofAutomaton_eq_ok_iff.1 check
      exact sound_dfa ih.consistent hdet
  | forgotten _ ih => exact sound_nfa ih.consistent

end Machine

namespace Dfa

/-- **Following one state gives the same answer as following the set of all states that are
possible**, whatever the word and in whatever way the deterministic machine is obtained.  All that
this takes is that the machine is consistent and deterministic, which is so however it is
obtained. -/
theorem accepts_eq_of_obtained :
    (∀ d : Dfa, d.automaton.Consistent → d.automaton.Deterministic →
      ∀ w, d.accepts w = d.automaton.accepts w) ∧
    ∀ d : Dfa, Machine.Obtained (.dfa d) →
      d.automaton.Consistent ∧ d.automaton.Deterministic ∧
        ∀ w, d.accepts w = d.automaton.accepts w := by
  refine ⟨fun d hd hdet => accepts_eq_accepts hd hdet, fun d h => ?_⟩
  have hd : (Machine.dfa d).Sound := h.sound
  have hdet : d.automaton.Deterministic := hd.deterministic rfl
  exact ⟨hd.consistent, hdet, accepts_eq_accepts hd.consistent hdet⟩

/-- The example determinized, pruned and numbered. -/
def tangleNumbered : Dfa := (Automaton.tangle.toDfa .lifo).removeUnreachable.canonicalize

theorem obtained_tangleNumbered : Machine.Obtained (.dfa tangleNumbered) := by
  have hmade : Machine.Obtained (.nfa Automaton.tangle) :=
    .made (b := Session.tangleBlueprint) rfl
  exact ((hmade.determinized .lifo).pruned).numbered fun _ => by decide +kernel

/-- The second word has a character in the middle that is not in the alphabet. -/
theorem accepts_eq_of_obtained_tangle :
    Machine.Obtained (.dfa tangleNumbered) ∧
      tangleNumbered.automaton.Consistent ∧ tangleNumbered.automaton.Deterministic ∧
      tangleNumbered.accepts ['a', 'b', 'a'] = true ∧
      tangleNumbered.automaton.accepts ['a', 'b', 'a'] = true ∧
      tangleNumbered.accepts ['a', 'λ', 'a'] = false ∧
      tangleNumbered.automaton.accepts ['a', 'λ', 'a'] = false := by
  obtain ⟨hcons, hdet, heq⟩ := accepts_eq_of_obtained.2 _ obtained_tangleNumbered
  have hword : tangleNumbered.accepts ['a', 'b', 'a'] = true := by decide +kernel
  have hforeign : tangleNumbered.accepts ['a', 'λ', 'a'] = false := by decide +kernel
  exact ⟨obtained_tangleNumbered, hcons, hdet, hword, (heq _).symm.trans hword, hforeign,
    (heq _).symm.trans hforeign⟩

end Dfa
end Determinization
