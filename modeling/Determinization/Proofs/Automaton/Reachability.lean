import Determinization.Automaton.Reachable
import Determinization.Proofs.Automaton.Consistency

/-!
# Reachable states

A state is reachable when a path leads to it from the initial state, whatever word the path reads.
The search of `Automaton.reachable` finds exactly these states (`mem_reachable`), and pruning keeps
exactly the transitions that leave one of them (`mem_transitions_removeUnreachable`): the target of
such a transition is reachable too, so the test of both ends in `removeUnreachable` loses nothing.
-/

namespace Determinization

theorem Relation.mem_filter {r : Relation} {p : Transition → Bool} {t : Transition} :
    t ∈ r.filter p ↔ t ∈ r ∧ p t = true := List.mem_filter

theorem Relation.filter_eq_self {r : Relation} {p : Transition → Bool} (h : ∀ t ∈ r, p t = true) :
    r.filter p = r := by
  obtain ⟨l, hl⟩ := r
  have hfilter : l.filter p = l := List.filter_eq_self.2 h
  simp only [filter, hfilter]

namespace Automaton

variable {a : Automaton} {s t : State} {x : Symbol} {w : List Char}

/-- A path leads from the initial state to the state. -/
def Reachable (a : Automaton) (s : State) : Prop := ∃ w, a.Leads a.initial w s

theorem reachable_initial (a : Automaton) : a.Reachable a.initial := ⟨[], Leads.stay _⟩

theorem exists_leads_of_mem (h : ⟨s, x, t⟩ ∈ a.transitions) : ∃ w, a.Leads s w t := by
  cases x with
  | epsilon => exact ⟨[], Leads.silent h (Leads.stay t)⟩
  | char c => exact ⟨[c], Leads.read h (Leads.stay t)⟩

theorem Reachable.target (hs : a.Reachable s) (h : ⟨s, x, t⟩ ∈ a.transitions) :
    a.Reachable t := by
  obtain ⟨v, hv⟩ := hs
  obtain ⟨w, hw⟩ := exists_leads_of_mem h
  exact ⟨v ++ w, hv.append hw⟩

/-- What holds of the initial state and passes along transitions holds of all reachable states. -/
theorem Reachable.induction {P : State → Prop} (hs : a.Reachable s) (hinitial : P a.initial)
    (hstep : ∀ {s x t}, P s → ⟨s, x, t⟩ ∈ a.transitions → P t) : P s := by
  obtain ⟨w, hw⟩ := hs
  generalize a.initial = i at hw hinitial
  induction hw with
  | stay s => exact hinitial
  | silent step _ ih => exact ih (hstep hinitial step)
  | read step _ ih => exact ih (hstep hinitial step)

theorem Consistent.mem_states_of_reachable (ha : a.Consistent) (hs : a.Reachable s) :
    s ∈ a.states := by
  obtain ⟨w, hw⟩ := hs
  exact hw.target_mem ha ha.initial_mem

/-! ## Searches along transitions -/

/-- A search whose neighbours are the targets of all transitions is joined to what is reachable. -/
theorem joined_iff_reachable {neighbours : State → List State}
    (hneighbours : ∀ s t, t ∈ neighbours s ↔ ∃ x, ⟨s, x, t⟩ ∈ a.transitions) :
    Search.Joined neighbours [a.initial] s ↔ a.Reachable s := by
  constructor
  · rintro ⟨i, hi, his⟩
    rw [List.mem_singleton] at hi
    induction his with
    | refl => exact hi ▸ a.reachable_initial
    | tail _ hstep ih =>
        obtain ⟨x, hx⟩ := (hneighbours _ _).1 hstep
        exact ih.target hx
  · intro hs
    refine hs.induction (Search.Joined.seed (List.mem_singleton.2 rfl)) ?_
    intro s x t hjoined hstep
    exact hjoined.neighbour ((hneighbours s t).2 ⟨x, hstep⟩)

/-- One state more than there are transitions is room enough to search for what is reachable. -/
theorem exists_universe_of_joined {neighbours : State → List State}
    (hneighbours : ∀ s t, t ∈ neighbours s ↔ ∃ x, ⟨s, x, t⟩ ∈ a.transitions) :
    ∃ whole : List State, whole.length ≤ 1 + a.transitions.size ∧
      ∀ s, Search.Joined neighbours [a.initial] s → s ∈ whole := by
  refine ⟨a.initial :: a.transitions.toList.map Edge.target, ?_, ?_⟩
  · rw [List.length_cons, List.length_map, Relation.size]
    omega
  · intro s hs
    rcases hs.mem_or_mem with hs | ⟨r, hr⟩
    · exact List.mem_cons.2 (Or.inl (List.mem_singleton.1 hs))
    · obtain ⟨x, hx⟩ := (hneighbours r s).1 hr
      exact List.mem_cons_of_mem _ (List.mem_map.2 ⟨_, hx, rfl⟩)

/-- **The search finds exactly the reachable states.** -/
theorem mem_reachable : s ∈ a.reachable ↔ a.Reachable s := by
  have hneighbours : ∀ s t, t ∈ (a.transitions.outgoing s).map Prod.snd ↔
      ∃ x, ⟨s, x, t⟩ ∈ a.transitions := by
    intro s t
    simp only [List.mem_map, Prod.exists, exists_eq_right, Relation.mem_outgoing]
  obtain ⟨whole, hlength, hwhole⟩ := exists_universe_of_joined hneighbours
  rw [reachable, SortedSet.mem_ofList, Search.mem_found_explore hwhole hlength,
    joined_iff_reachable hneighbours]

/-! ## Pruning -/

theorem mem_states_removeUnreachable : s ∈ a.removeUnreachable.states ↔ a.Reachable s :=
  mem_reachable

theorem mem_accepting_removeUnreachable :
    s ∈ a.removeUnreachable.accepting ↔ s ∈ a.accepting ∧ a.Reachable s := by
  rw [removeUnreachable, SortedSet.mem_filter, decide_eq_true_iff, mem_reachable]

/-- **Pruning keeps the transitions that leave reachable states.** -/
theorem mem_transitions_removeUnreachable :
    ⟨s, x, t⟩ ∈ a.removeUnreachable.transitions ↔ ⟨s, x, t⟩ ∈ a.transitions ∧ a.Reachable s := by
  rw [removeUnreachable, Relation.mem_filter, Bool.and_eq_true, decide_eq_true_iff,
    decide_eq_true_iff, mem_reachable, mem_reachable]
  constructor
  · rintro ⟨h, hs, -⟩
    exact ⟨h, hs⟩
  · rintro ⟨h, hs⟩
    exact ⟨h, hs, hs.target h⟩

theorem reachable_eq_states (ha : a.Consistent) (hall : ∀ s ∈ a.states, a.Reachable s) :
    a.reachable = a.states := by
  refine SortedSet.ext fun s => ?_
  rw [mem_reachable]
  exact ⟨ha.mem_states_of_reachable, hall s⟩

/-- Pruning an automaton without unreachable states changes nothing. -/
theorem removeUnreachable_eq_self (ha : a.Consistent) (hall : ∀ s ∈ a.states, a.Reachable s) :
    a.removeUnreachable = a := by
  have hstates := reachable_eq_states ha hall
  have haccepting : a.accepting.filter (fun s => decide (s ∈ a.reachable)) = a.accepting :=
    SortedSet.ext fun s => by
      rw [SortedSet.mem_filter, decide_eq_true_iff, hstates]
      exact and_iff_left_of_imp (ha.accepting_mem s)
  have htransitions : a.transitions.filter (fun t =>
      decide (t.source ∈ a.reachable) && decide (t.target ∈ a.reachable)) = a.transitions := by
    refine Relation.filter_eq_self fun t ht => ?_
    rw [hstates, Bool.and_eq_true, decide_eq_true_iff, decide_eq_true_iff]
    exact ⟨ha.source_mem t ht, ha.target_mem t ht⟩
  rw [removeUnreachable, haccepting, htransitions, hstates]

end Automaton
end Determinization
