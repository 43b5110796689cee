import Determinization.Proofs.Automaton.Reachability
import Mathlib.Logic.Relator

/-!
# Renaming the reachable part

Pruning, canonical numbering, and writing an automaton and reading it back all do the same to an
automaton: they give its states other names, and perhaps lose states that are not reachable.
`Automaton.Renaming R a b` says so.  The relation `R` pairs each old name with at most one new name
and each new name with at most one old one; it pairs the initial states; and from paired states the
same symbols lead to paired states, in both directions.  So `R` pairs all reachable states, and
nothing is asked of the others.

Paths correspond under a renaming (`Renaming.exists_leads`), hence so do the sets that words lead
to (`Renaming.mem_after_iff`), and the accepted words are the same (`Renaming.accepts_eq`).
-/

namespace Determinization
namespace Automaton

/-- The relation renames the states of one automaton, as far as they are reachable, to those of
another. -/
structure Renaming (R : State → State → Prop) (a b : Automaton) : Prop where
  unique : Relator.BiUnique R
  alphabet_eq : a.alphabet = b.alphabet
  initial : R a.initial b.initial
  forth : ∀ {s s' x t}, R s s' → ⟨s, x, t⟩ ∈ a.transitions →
    ∃ t', R t t' ∧ ⟨s', x, t'⟩ ∈ b.transitions
  back : ∀ {s s' x t'}, R s s' → ⟨s', x, t'⟩ ∈ b.transitions →
    ∃ t, R t t' ∧ ⟨s, x, t⟩ ∈ a.transitions
  accepting_iff : ∀ {s s'}, R s s' → (s ∈ a.accepting ↔ s' ∈ b.accepting)

namespace Renaming

variable {R : State → State → Prop} {a b : Automaton} {s s' t t' : State} {x : Symbol}
  {v w : List Char}

/-- A renaming can be undone. -/
theorem symm (h : Renaming R a b) : Renaming (flip R) b a where
  unique := ⟨fun _ _ _ h₁ h₂ => h.unique.2 h₁ h₂, h.unique.1.flip⟩
  alphabet_eq := h.alphabet_eq.symm
  initial := h.initial
  forth hs ht := h.back hs ht
  back hs ht := h.forth hs ht
  accepting_iff hs := (h.accepting_iff hs).symm

/-- **Paths correspond under a renaming.** -/
theorem exists_leads (h : Renaming R a b) (hs : R s s') (hw : a.Leads s w t) :
    ∃ t', R t t' ∧ b.Leads s' w t' := by
  induction hw generalizing s' with
  | stay s => exact ⟨s', hs, Leads.stay s'⟩
  | silent step _ ih =>
      obtain ⟨p', hp, hstep⟩ := h.forth hs step
      obtain ⟨t', ht, hrest⟩ := ih hp
      exact ⟨t', ht, Leads.silent hstep hrest⟩
  | read step _ ih =>
      obtain ⟨p', hp, hstep⟩ := h.forth hs step
      obtain ⟨t', ht, hrest⟩ := ih hp
      exact ⟨t', ht, Leads.read hstep hrest⟩

theorem leads_iff (h : Renaming R a b) (hs : R s s') (ht : R t t') :
    a.Leads s w t ↔ b.Leads s' w t' := by
  constructor
  · intro hw
    obtain ⟨u', hu, hw'⟩ := h.exists_leads hs hw
    rwa [h.unique.2 ht hu]
  · intro hw
    obtain ⟨u, hu, hw'⟩ := h.symm.exists_leads hs hw
    rwa [h.unique.1 ht hu]

/-- Every reachable state has another name. -/
theorem exists_of_reachable (h : Renaming R a b) (hs : a.Reachable s) : ∃ s', R s s' := by
  obtain ⟨w, hw⟩ := hs
  obtain ⟨s', hs', -⟩ := h.exists_leads h.initial hw
  exact ⟨s', hs'⟩

theorem reachable_iff (h : Renaming R a b) (hs : R s s') : a.Reachable s ↔ b.Reachable s' :=
  exists_congr fun _ => h.leads_iff h.initial hs

/-! ## Words -/

/-- The sets that a word leads to correspond under a renaming. -/
theorem mem_after_iff (h : Renaming R a b) (hs : R s s') : s ∈ a.after w ↔ s' ∈ b.after w := by
  rw [mem_after, mem_after]
  exact h.leads_iff h.initial hs

theorem after_eq_of_after_eq (h : Renaming R a b) (heq : a.after v = a.after w) :
    b.after v = b.after w := by
  refine SortedSet.ext fun s' => ?_
  have hname : ∀ u, s' ∈ b.after u → ∃ s, R s s' := fun u hu =>
    h.symm.exists_of_reachable ⟨u, mem_after.1 hu⟩
  constructor
  · intro hv
    obtain ⟨s, hs⟩ := hname v hv
    rwa [← h.mem_after_iff hs, ← heq, h.mem_after_iff hs]
  · intro hw
    obtain ⟨s, hs⟩ := hname w hw
    rwa [← h.mem_after_iff hs, heq, h.mem_after_iff hs]

/-- **Renamed automata accept the same words.** -/
theorem accepts_eq (h : Renaming R a b) (w : List Char) : a.accepts w = b.accepts w := by
  rw [Bool.eq_iff_iff, accepts_iff, accepts_iff, h.alphabet_eq]
  refine and_congr_right fun _ => ?_
  constructor
  · rintro ⟨t, ht, hacc⟩
    obtain ⟨t', htt', ht'⟩ := h.exists_leads h.initial ht
    exact ⟨t', ht', (h.accepting_iff htt').1 hacc⟩
  · rintro ⟨t', ht', hacc⟩
    obtain ⟨t, htt', ht⟩ := h.symm.exists_leads h.initial ht'
    exact ⟨t, ht, (h.accepting_iff htt').2 hacc⟩

end Renaming

end Automaton
end Determinization
