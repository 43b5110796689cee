import Determinization.Proofs.Automaton.Powerset
import Determinization.Proofs.Automaton.Walk

/-!
# The dead state of the subset construction

Some words cannot be read to their end: no walk from the initial state spells them, so no state is
left in which the automaton could be.  The set after such a word has no members, and the state that
stands for it is the dead state.  The subset construction therefore has a dead state exactly when
there is such a word over the alphabet (`dead_mem_states_toDfa`), and the words that lead to it are
exactly these words (`leads_dead_iff`).

A word that begins with such a word cannot be read either.  So nothing leads away from the dead
state and no word through it is accepted (`IsSink`).

The automaton may have the dead state among its own states, and as a member of others.  That makes
no difference: a set that has the dead state for a member is not the set without members.
-/

namespace Determinization

/-! ## Asking a machine for its dead state -/

namespace Dfa

variable {d : Dfa} {s : State}

/-- A machine shows the dead state if it has it, and no other state. -/
theorem deadState?_eq_some_iff :
    d.deadState? = some s ↔ s = .dead ∧ .dead ∈ d.automaton.states := by
  constructor
  · intro h
    have hdead : s = .dead := State.isDead_iff.1 (List.find?_some h)
    have hmem : s ∈ d.automaton.states := List.mem_of_find?_eq_some h
    exact ⟨hdead, hdead ▸ hmem⟩
  · rintro ⟨rfl, hmem⟩
    -- something is found, and whatever is found is dead
    have hfound : d.deadState?.isSome = true :=
      List.find?_isSome.2 ⟨.dead, hmem, State.isDead_iff.2 rfl⟩
    obtain ⟨t, ht⟩ := Option.isSome_iff_exists.1 hfound
    rw [ht, State.isDead_iff.1 (List.find?_some ht)]

/-- A machine without the dead state has none to show. -/
theorem deadState?_eq_none_iff : d.deadState? = none ↔ .dead ∉ d.automaton.states := by
  rw [Option.eq_none_iff_forall_ne_some]
  simp [deadState?_eq_some_iff]

end Dfa

namespace Automaton

variable {a : Automaton} {order : WorklistOrder} {s : State} {c : Char} {v w : List Char}

/-! ## Words without a run -/

/-- Some walk from the initial state spells the word, wherever it ends. -/
def HasRun (a : Automaton) (w : List Char) : Prop := ∃ p t, a.Walk a.initial p t ∧ spelled p = w

theorem hasRun_iff_exists_leads : a.HasRun w ↔ ∃ t, a.Leads a.initial w t := by
  simp only [leads_iff_exists_walk]
  exact exists_comm

/-- A word has a run if it begins a word that has one. -/
theorem HasRun.of_append (h : a.HasRun (v ++ w)) : a.HasRun v := by
  obtain ⟨t, ht⟩ := hasRun_iff_exists_leads.1 h
  obtain ⟨u, hu, -⟩ := leads_append_iff.1 ht
  exact hasRun_iff_exists_leads.2 ⟨u, hu⟩

theorem hasRun_of_accepts (h : a.accepts w = true) : a.HasRun w := by
  obtain ⟨-, t, ht, -⟩ := accepts_iff.1 h
  exact hasRun_iff_exists_leads.2 ⟨t, ht⟩

/-- **The state after a word is dead exactly when the word has no run.** -/
theorem afterState_eq_dead_iff : a.afterState w = .dead ↔ ¬ a.HasRun w := by
  have hempty : a.afterState w = .dead ↔ a.after w = .empty :=
    ⟨State.composite_injective, congrArg State.composite⟩
  rw [hempty, hasRun_iff_exists_leads, not_exists]
  constructor
  · intro h t ht
    exact SortedSet.not_mem_empty t (h ▸ mem_after.2 ht)
  · intro h
    refine SortedSet.ext fun t => ?_
    rw [mem_after]
    exact iff_of_false (h t) (SortedSet.not_mem_empty t)

/-! ## The dead state of the result -/

theorem dead_mem_states_toDfa (ha : a.Consistent) (order : WorklistOrder) :
    .dead ∈ (a.toDfa order).automaton.states ↔ ∃ w, a.alphabet.Spells w ∧ ¬ a.HasRun w := by
  simp only [mem_states_toDfa ha, ← afterState_eq_dead_iff, eq_comm]

/-- **The words that lead to the dead state are the words over the alphabet that have no run.** -/
theorem leads_dead_iff (ha : a.Consistent) :
    (a.toDfa order).automaton.Leads (a.toDfa order).automaton.initial v .dead ↔
      a.alphabet.Spells v ∧ ¬ a.HasRun v := by
  rw [leads_toDfa_iff ha, ← afterState_eq_dead_iff, eq_comm]

theorem dead_not_mem_accepting : .dead ∉ (a.toDfa order).automaton.accepting := by
  intro h
  obtain ⟨-, hacc⟩ := mem_accepting_toDfa.1 h
  obtain ⟨m, hm, -⟩ := isAcceptingSet_eq_true_iff.1 hacc
  rw [State.dead, State.members_composite] at hm
  exact List.not_mem_nil hm

/-- Every character leads from the dead state to itself. -/
theorem successor?_dead (ha : a.Consistent) (hdead : .dead ∈ (a.toDfa order).automaton.states)
    (hc : c ∈ a.alphabet) : (a.toDfa order).successor? .dead c = some .dead := by
  obtain ⟨w, hw, hnone⟩ := (dead_mem_states_toDfa ha order).1 hdead
  have hafter : a.afterState w = .dead := afterState_eq_dead_iff.2 hnone
  have hnext : a.afterState (w ++ [c]) = .dead :=
    afterState_eq_dead_iff.2 fun h => hnone h.of_append
  refine Dfa.successor?_of_targets fun u => ?_
  rw [← hafter, afterState_step_iff ha hw hc, hnext, hafter]

/-- The state is an absorbing sink of the machine: it is not accepting, every character leads from
it to itself, and no word that the automaton accepts begins with a word that leads to it. -/
structure IsSink (a : Automaton) (d : Dfa) (s : State) : Prop where
  not_accepting : d.automaton.isAccepting s = false
  successor?_eq : ∀ c ∈ d.automaton.alphabet, d.successor? s c = some s
  rejected : ∀ v, d.automaton.Leads d.automaton.initial v s → ∀ w, a.accepts (v ++ w) = false

theorem isSink_dead (ha : a.Consistent) (hdead : .dead ∈ (a.toDfa order).automaton.states) :
    IsSink a (a.toDfa order) .dead where
  not_accepting := decide_eq_false dead_not_mem_accepting
  successor?_eq c hc := successor?_dead ha hdead hc
  rejected v hv w := by
    obtain ⟨-, hnone⟩ := (leads_dead_iff ha).1 hv
    rw [← Bool.not_eq_true]
    exact fun hacc => hnone (hasRun_of_accepts hacc).of_append

/-- **The dead state is there exactly when some word over the alphabet has no run, and then it is an
absorbing sink**, for either worklist order and whatever the states of the automaton are. -/
theorem deadState?_toDfa (ha : a.Consistent) (order : WorklistOrder) :
    ((a.toDfa order).deadState?.isSome = true ↔ ∃ w, a.alphabet.Spells w ∧ ¬ a.HasRun w) ∧
      ∀ s, (a.toDfa order).deadState? = some s → s = .dead ∧ IsSink a (a.toDfa order) s := by
  constructor
  · rw [← dead_mem_states_toDfa ha order, Option.isSome_iff_exists]
    simp [Dfa.deadState?_eq_some_iff]
  · intro s hs
    obtain ⟨rfl, hdead⟩ := Dfa.deadState?_eq_some_iff.1 hs
    exact ⟨rfl, isSink_dead ha hdead⟩

/-- The example has the dead state for a state, and its result has it for a sink; the result of the
result has none, and every word has a run in the result. -/
theorem deadState?_toDfa_tangle :
    tangle.Consistent ∧ .dead ∈ tangle.states ∧
      (∃ w, tangle.alphabet.Spells w ∧ ¬ tangle.HasRun w) ∧
      (tangle.toDfa .lifo).deadState? = some .dead ∧ IsSink tangle (tangle.toDfa .lifo) .dead ∧
      ((tangle.toDfa .lifo).automaton.toDfa .fifo).deadState? = none ∧
      ∀ w, tangle.alphabet.Spells w → (tangle.toDfa .lifo).automaton.HasRun w := by
  have hcons := consistent_of_build build_tangle
  have hdead : (tangle.toDfa .lifo).deadState? = some .dead := by decide +kernel
  have hnone : ((tangle.toDfa .lifo).automaton.toDfa .fifo).deadState? = none := by decide +kernel
  obtain ⟨hiff, hsink⟩ := deadState?_toDfa hcons .lifo
  have hiff' := (deadState?_toDfa (consistent_toDfa hcons .lifo) .fifo).1
  refine ⟨hcons, by decide +kernel, hiff.1 (by rw [hdead]; rfl), hdead, (hsink _ hdead).2, hnone,
    ?_⟩
  intro w hw
  by_contra hrun
  have hsome := hiff'.2 ⟨w, hw, hrun⟩
  rw [hnone] at hsome
  exact Bool.noConfusion hsome

end Automaton
end Determinization
