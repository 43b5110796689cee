import Determinization.Proofs.Automaton.Determinism
import Determinization.Proofs.Automaton.Renaming

/-!
# Images of automata

Pruning, canonical numbering, and writing and reading back compute an automaton from another one in
the same way.  They take a part of the states that no transition leaves, give every state of the
part a name, and carry transitions and accepting states along; `IsImage part name a b` says that `b`
comes from `a` like this.

The image of a consistent automaton is consistent (`IsImage.consistent`).  Where states of the part
never share a name, naming is a renaming (`IsImage.isRenaming`), and determinism and reachability
are carried along too (`IsImage.deterministic`, `IsImage.reachable`).
-/

namespace Determinization
namespace Automaton

variable {part : State → Prop} {name : State → State} {a b : Automaton} {s t : State}

/-- The second automaton consists of the names of a part of the first. -/
structure IsImage (part : State → Prop) (name : State → State) (a b : Automaton) : Prop where
  alphabet_eq : a.alphabet = b.alphabet
  part_initial : part a.initial
  part_target : ∀ {s x t}, part s → ⟨s, x, t⟩ ∈ a.transitions → part t
  initial_eq : b.initial = name a.initial
  mem_states : ∀ {t}, t ∈ b.states ↔ ∃ s, part s ∧ t = name s
  mem_transitions : ∀ {t}, t ∈ b.transitions ↔
    ∃ s x u, part s ∧ ⟨s, x, u⟩ ∈ a.transitions ∧ t = ⟨name s, x, name u⟩
  mem_accepting : ∀ {t}, t ∈ b.accepting ↔ ∃ s, part s ∧ s ∈ a.accepting ∧ t = name s

/-- No two states of the part have the same name. -/
def TellsApart (part : State → Prop) (name : State → State) : Prop :=
  ∀ ⦃s t⦄, part s → part t → name s = name t → s = t

namespace IsImage

variable (h : IsImage part name a b)

include h in
/-- **The image of a consistent automaton is consistent.** -/
theorem consistent (ha : a.Consistent) : b.Consistent where
  encodable c hc := ha.encodable c (h.alphabet_eq ▸ hc)
  initial_mem := h.mem_states.2 ⟨a.initial, h.part_initial, h.initial_eq⟩
  accepting_mem s hs := by
    obtain ⟨r, hr, -, rfl⟩ := h.mem_accepting.1 hs
    exact h.mem_states.2 ⟨r, hr, rfl⟩
  source_mem t ht := by
    obtain ⟨s, x, u, hs, -, rfl⟩ := h.mem_transitions.1 ht
    exact h.mem_states.2 ⟨s, hs, rfl⟩
  target_mem t ht := by
    obtain ⟨s, x, u, hs, hstep, rfl⟩ := h.mem_transitions.1 ht
    exact h.mem_states.2 ⟨u, h.part_target hs hstep, rfl⟩
  label_mem t ht := by
    obtain ⟨s, x, u, -, hstep, rfl⟩ := h.mem_transitions.1 ht
    rw [← h.alphabet_eq]
    exact ha.label_mem ⟨s, x, u⟩ hstep

variable (hname : TellsApart part name)

include h hname

theorem mem_transitions_iff (hs : part s) {x : Symbol} :
    ⟨name s, x, t⟩ ∈ b.transitions ↔ ∃ u, ⟨s, x, u⟩ ∈ a.transitions ∧ t = name u := by
  rw [h.mem_transitions]
  constructor
  · rintro ⟨r, y, u, hr, hstep, heq⟩
    simp only [Edge.mk.injEq] at heq
    obtain ⟨hrs, rfl, rfl⟩ := heq
    obtain rfl := hname hs hr hrs
    exact ⟨u, hstep, rfl⟩
  · rintro ⟨u, hstep, rfl⟩
    exact ⟨s, x, u, hs, hstep, rfl⟩

/-- **Where no name is shared, an image is the automaton under other names.** -/
theorem isRenaming : Renaming (fun s s' => part s ∧ s' = name s) a b where
  unique := by
    constructor
    · rintro s t u ⟨hs, rfl⟩ ⟨ht, heq⟩
      exact hname hs ht heq
    · rintro s t u ⟨-, rfl⟩ ⟨-, rfl⟩
      rfl
  alphabet_eq := h.alphabet_eq
  initial := ⟨h.part_initial, h.initial_eq⟩
  forth := by
    rintro s s' x t ⟨hs, rfl⟩ hstep
    exact ⟨name t, ⟨h.part_target hs hstep, rfl⟩,
      (h.mem_transitions_iff hname hs).2 ⟨t, hstep, rfl⟩⟩
  back := by
    rintro s s' x t' ⟨hs, rfl⟩ hstep
    obtain ⟨u, hu, rfl⟩ := (h.mem_transitions_iff hname hs).1 hstep
    exact ⟨u, ⟨h.part_target hs hu, rfl⟩, hu⟩
  accepting_iff := by
    rintro s s' ⟨hs, rfl⟩
    rw [h.mem_accepting]
    constructor
    · intro hacc
      exact ⟨s, hs, hacc, rfl⟩
    · rintro ⟨r, hr, hacc, heq⟩
      rwa [hname hs hr heq]

theorem deterministic (hdet : a.Deterministic)
    (hpart : ∀ {s}, part s → s ∈ a.states) : b.Deterministic := by
  have hdet' := deterministic_iff.1 hdet
  refine deterministic_iff.2 ⟨?_, ?_⟩
  · intro t ht
    obtain ⟨s, x, u, -, hstep, rfl⟩ := h.mem_transitions.1 ht
    exact hdet'.1 ⟨s, x, u⟩ hstep
  · intro t ht c hc
    obtain ⟨s, hs, rfl⟩ := h.mem_states.1 ht
    obtain ⟨u, hu⟩ := hdet'.2 s (hpart hs) c (h.alphabet_eq ▸ hc)
    refine ⟨name u, fun v => ?_⟩
    rw [h.mem_transitions_iff hname hs]
    simp only [hu, exists_eq_left]

/-- An image of reachable states has no others. -/
theorem reachable (hpart : ∀ {s}, part s → a.Reachable s) (ht : t ∈ b.states) :
    b.Reachable t := by
  obtain ⟨s, hs, rfl⟩ := h.mem_states.1 ht
  exact ((h.isRenaming hname).reachable_iff ⟨hs, rfl⟩).1 (hpart hs)

end IsImage

/-- Pruning names nothing anew and takes the reachable part. -/
theorem isImage_removeUnreachable (a : Automaton) :
    IsImage a.Reachable id a a.removeUnreachable where
  alphabet_eq := rfl
  part_initial := a.reachable_initial
  part_target hs hstep := hs.target hstep
  initial_eq := rfl
  mem_states := by
    intro t
    simp only [mem_states_removeUnreachable, id_eq, exists_eq_right']
  mem_transitions := by
    intro t
    obtain ⟨s, x, u⟩ := t
    rw [mem_transitions_removeUnreachable]
    constructor
    · rintro ⟨hstep, hs⟩
      exact ⟨s, x, u, hs, hstep, rfl⟩
    · rintro ⟨s, x, u, hs, hstep, ⟨⟩⟩
      exact ⟨hstep, hs⟩
  mem_accepting := by
    intro t
    rw [mem_accepting_removeUnreachable]
    constructor
    · rintro ⟨hacc, hs⟩
      exact ⟨t, hs, hacc, rfl⟩
    · rintro ⟨s, hs, hacc, rfl⟩
      exact ⟨hacc, hs⟩

theorem tellsApart_id : TellsApart part id := fun _ _ _ _ heq => heq

/-- A consistent automaton is an image of itself. -/
theorem isImage_self (ha : a.Consistent) : IsImage (· ∈ a.states) id a a where
  alphabet_eq := rfl
  part_initial := ha.initial_mem
  part_target _ hstep := ha.target_mem _ hstep
  initial_eq := rfl
  mem_states := by simp only [id_eq, exists_eq_right', implies_true]
  mem_transitions := by
    intro t
    constructor
    · intro ht
      exact ⟨t.source, t.label, t.target, ha.source_mem t ht, ht, rfl⟩
    · rintro ⟨s, x, u, -, hstep, rfl⟩
      exact hstep
  mem_accepting := by
    intro t
    constructor
    · intro hacc
      exact ⟨t, ha.accepting_mem t hacc, hacc, rfl⟩
    · rintro ⟨s, -, hacc, rfl⟩
      exact hacc

end Automaton
end Determinization
