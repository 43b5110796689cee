import Determinization.Proofs.Automaton.Consistency

/-!
# Walks and the words they spell

`Automaton.Leads` says that some path reads a word and forgets the path.  Here the path is kept: a
walk is the list of its transitions, each of them a move of the automaton that starts where the one
before it ends.  What a walk spells is read off afterwards, by leaving out the labels that are the
empty word (`spelled`).  So a walk may move silently as often as it likes, in circles too, before,
between and after the characters of its word.

Both descriptions agree (`leads_iff_exists_walk`), by induction on the path one way and on the list
the other way.  Following the set of states in which the automaton can be therefore decides whether
some walk from the initial state to an accepting state spells the word (`accepts_iff_exists_walk`).
-/

namespace Determinization
namespace Automaton

variable {a : Automaton} {s t : State} {w : List Char} {p : List Transition}

/-- The transitions are moves of the automaton that lead from one state to another, each starting
where the one before it ends. -/
def Walk (a : Automaton) : State → List Transition → State → Prop
  | s, [], t => s = t
  | s, e :: p, t => e ∈ a.transitions ∧ e.source = s ∧ a.Walk e.target p t

instance decidableWalk (a : Automaton) : ∀ (s : State) (p : List Transition) (t : State),
    Decidable (a.Walk s p t)
  | s, [], t => inferInstanceAs (Decidable (s = t))
  | s, e :: p, t =>
      have := decidableWalk a e.target p t
      inferInstanceAs (Decidable (e ∈ a.transitions ∧ e.source = s ∧ a.Walk e.target p t))

/-- The characters among the labels, in order. -/
def spelled (p : List Transition) : List Char := p.filterMap fun e => e.label.char?

@[simp] theorem walk_nil : a.Walk s [] t ↔ s = t := Iff.rfl

@[simp] theorem walk_cons {e : Transition} :
    a.Walk s (e :: p) t ↔ e ∈ a.transitions ∧ e.source = s ∧ a.Walk e.target p t := Iff.rfl

@[simp] theorem spelled_silent : spelled (⟨s, .epsilon, t⟩ :: p) = spelled p := rfl

@[simp] theorem spelled_read {c : Char} : spelled (⟨s, .char c, t⟩ :: p) = c :: spelled p := rfl

/-- Every path is a walk that spells what the path reads. -/
theorem Leads.exists_walk (h : a.Leads s w t) : ∃ p, a.Walk s p t ∧ spelled p = w := by
  induction h with
  | stay s => exact ⟨[], rfl, rfl⟩
  | @silent s t u w step _ ih =>
      obtain ⟨p, hp, rfl⟩ := ih
      exact ⟨⟨s, .epsilon, t⟩ :: p, ⟨step, rfl, hp⟩, rfl⟩
  | @read s t u c w step _ ih =>
      obtain ⟨p, hp, rfl⟩ := ih
      exact ⟨⟨s, .char c, t⟩ :: p, ⟨step, rfl, hp⟩, rfl⟩

/-- A walk is a path that reads what the walk spells. -/
theorem Walk.leads (h : a.Walk s p t) : a.Leads s (spelled p) t := by
  induction p generalizing s with
  | nil =>
      obtain rfl := walk_nil.1 h
      exact Leads.stay s
  | cons e p ih =>
      obtain ⟨source, label, target⟩ := e
      obtain ⟨step, rfl, hrest⟩ := walk_cons.1 h
      cases label with
      | epsilon =>
          rw [spelled_silent]
          exact Leads.silent step (ih hrest)
      | char c =>
          rw [spelled_read]
          exact Leads.read step (ih hrest)

/-- **Paths are walks, and what they read is what is spelled.** -/
theorem leads_iff_exists_walk : a.Leads s w t ↔ ∃ p, a.Walk s p t ∧ spelled p = w := by
  refine ⟨Leads.exists_walk, ?_⟩
  rintro ⟨p, hp, rfl⟩
  exact hp.leads

/-- **A word is accepted exactly when a walk from the initial state to an accepting state spells
it.**  The word may be of any characters; those outside the alphabet are on no transition. -/
theorem accepts_iff_exists_walk (ha : a.Consistent) (w : List Char) :
    a.accepts w = true ↔ ∃ p t, a.Walk a.initial p t ∧ t ∈ a.accepting ∧ spelled p = w := by
  rw [ha.accepts_iff_leads]
  constructor
  · rintro ⟨t, ht, hacc⟩
    obtain ⟨p, hp, hspelled⟩ := ht.exists_walk
    exact ⟨p, t, hp, hacc, hspelled⟩
  · rintro ⟨p, t, hp, hacc, rfl⟩
    exact ⟨t, hp.leads, hacc⟩

/-- A walk of the example that goes once around its silent circle before it reads anything. -/
def tangleWalk : List Transition :=
  [⟨.simple 0, .epsilon, .dead⟩, ⟨.dead, .epsilon, .simple 0⟩, ⟨.simple 0, .epsilon, .dead⟩,
    ⟨.dead, .char 'a', .ofMembers [.simple 3, .dead]⟩,
    ⟨.ofMembers [.simple 3, .dead], .char 'b', .simple 0⟩, ⟨.simple 0, .epsilon, .dead⟩,
    ⟨.dead, .char 'a', .ofMembers [.simple 3, .dead]⟩]

theorem accepts_iff_exists_walk_tangle :
    tangle.Consistent ∧ tangle.accepts ['a', 'b', 'a'] = true ∧
      ¬ ∃ p t, tangle.Walk tangle.initial p t ∧ t ∈ tangle.accepting ∧ spelled p = ['a', 'ε'] := by
  have hcons := consistent_of_build build_tangle
  have hwalk : tangle.Walk tangle.initial tangleWalk (.ofMembers [.simple 3, .dead]) := by
    decide +kernel
  refine ⟨hcons, (accepts_iff_exists_walk hcons _).2 ⟨tangleWalk, _, hwalk, ?_, rfl⟩, ?_⟩
  · decide +kernel
  · rw [← accepts_iff_exists_walk hcons]
    decide +kernel

end Automaton
end Determinization
