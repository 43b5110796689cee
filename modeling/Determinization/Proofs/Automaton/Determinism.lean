import Determinization.Dfa
import Determinization.Proofs.Automaton.Consistency
import Mathlib.Data.List.Nodup
import Mathlib.Data.List.Perm.Basic

/-!
# Deterministic automata

The check of `Dfa.ofAutomaton` succeeds exactly on deterministic automata (`ofAutomaton_eq_ok_iff`),
and determinism says in terms of transitions what the check counts in lists
(`deterministic_iff`): there is no transition on the empty word, and one target for every declared
state and every character.

## One state in place of a set

A deterministic machine follows a single state through a word and stops where it finds no
transition.  In a consistent automaton this happens at a character outside the alphabet and nowhere
else, so the machine accepts what the automaton accepts that follows sets of states
(`Dfa.accepts_eq_accepts`).
-/

open Relation (ReflTransGen)

namespace Determinization

namespace Relation

variable {r : Relation} {s t : State} {x : Symbol}

/-- A relation has no repetitions, so no target is listed twice. -/
theorem nodup_targets (r : Relation) (s : State) (x : Symbol) : (r.targets s x).Nodup := by
  refine List.Nodup.map_on ?_ (r.nodup.filter _)
  rintro ⟨s₁, x₁, t₁⟩ h₁ ⟨s₂, x₂, t₂⟩ h₂ rfl
  have hs₁ := (List.mem_filter.1 h₁).2
  have hs₂ := (List.mem_filter.1 h₂).2
  simp only [Bool.and_eq_true, beq_iff_eq] at hs₁ hs₂
  rw [hs₁.1, hs₁.2, hs₂.1, hs₂.2]

theorem targets_eq_singleton_iff : r.targets s x = [t] ↔ ∀ u, ⟨s, x, u⟩ ∈ r ↔ u = t := by
  constructor
  · intro h u
    rw [← mem_targets, h, List.mem_singleton]
  · intro h
    have hmem : ∀ u, u ∈ r.targets s x ↔ u ∈ [t] := fun u => by
      rw [mem_targets, h u, List.mem_singleton]
    have hperm := (List.perm_ext_iff_of_nodup (r.nodup_targets s x) (List.nodup_singleton t)).2 hmem
    exact List.perm_singleton.1 hperm

theorem length_targets_eq_one_iff :
    (r.targets s x).length = 1 ↔ ∃ t, ∀ u, ⟨s, x, u⟩ ∈ r ↔ u = t := by
  rw [List.length_eq_one_iff]
  simp only [targets_eq_singleton_iff]

end Relation

namespace Automaton

variable {a : Automaton} {s t u : State} {c : Char} {w : List Char}

/-- **Determinism in terms of transitions.** -/
theorem deterministic_iff :
    a.Deterministic ↔
      (∀ t ∈ a.transitions, t.label ≠ .epsilon) ∧
        ∀ s ∈ a.states, ∀ c ∈ a.alphabet, ∃ t, ∀ u, ⟨s, .char c, u⟩ ∈ a.transitions ↔ u = t := by
  simp only [← Relation.length_targets_eq_one_iff]
  exact ⟨fun h => ⟨h.1, h.2⟩, fun h => ⟨h.1, h.2⟩⟩

theorem targetFault?_eq_none_iff :
    a.targetFault? s c = none ↔ (a.transitions.targets s (.char c)).length = 1 := by
  unfold targetFault?
  by_cases h : (a.transitions.targets s (.char c)).length = 1
  · simp [h]
  · simp [h]

theorem determinismFault?_eq_none_iff : a.determinismFault? = none ↔ a.Deterministic := by
  unfold determinismFault?
  cases hfind : a.transitions.toList.find? fun t => t.label.isEpsilon with
  | some t =>
      have ht := List.find?_some hfind
      have hmem : t ∈ a.transitions := List.mem_of_find?_eq_some hfind
      simp only [reduceCtorEq, false_iff]
      intro h
      exact h.no_epsilon t hmem (Symbol.isEpsilon_iff.1 ht)
  | none =>
      have hnone := List.find?_eq_none.1 hfind
      have hepsilon : ∀ t ∈ a.transitions, t.label ≠ .epsilon := by
        intro t ht hlabel
        exact hnone t ht (Symbol.isEpsilon_iff.2 hlabel)
      simp only [List.findSome?_eq_none_iff, List.mem_flatMap, List.mem_map]
      constructor
      · intro h
        refine ⟨hepsilon, fun s hs c hc => targetFault?_eq_none_iff.1 ?_⟩
        exact h (s, c) ⟨s, hs, c, hc, rfl⟩
      · rintro h p ⟨s, hs, c, hc, rfl⟩
        exact targetFault?_eq_none_iff.2 (h.one_target s hs c hc)

/-! ## Paths of deterministic automata -/

theorem Deterministic.not_silent (ha : a.Deterministic) : ¬ a.Silent s t :=
  fun h => ha.no_epsilon _ h rfl

/-- Without silent moves, a silent path stays where it is. -/
theorem Deterministic.eq_of_silent (ha : a.Deterministic) (h : ReflTransGen a.Silent s t) :
    s = t := by
  induction h with
  | refl => rfl
  | tail _ hstep _ => exact absurd hstep ha.not_silent

theorem Deterministic.leads_nil_iff (ha : a.Deterministic) : a.Leads s [] t ↔ s = t := by
  rw [Automaton.leads_nil_iff]
  refine ⟨ha.eq_of_silent, ?_⟩
  rintro rfl
  exact ReflTransGen.refl

theorem Deterministic.leads_cons_iff (ha : a.Deterministic) :
    a.Leads s (c :: w) u ↔ ∃ t, ⟨s, .char c, t⟩ ∈ a.transitions ∧ a.Leads t w u := by
  rw [Automaton.leads_cons_iff]
  constructor
  · rintro ⟨p, q, hsp, hpq, hqu⟩
    exact ⟨q, ha.eq_of_silent hsp ▸ hpq, hqu⟩
  · rintro ⟨t, hst, htu⟩
    exact ⟨s, t, ReflTransGen.refl, hst, htu⟩

end Automaton

namespace Dfa

variable {a : Automaton} {d : Dfa} {s t : State} {c : Char} {w : List Char}

/-- **The check succeeds exactly on deterministic automata, and changes nothing.** -/
theorem ofAutomaton_eq_ok_iff : ofAutomaton a = .ok d ↔ a.Deterministic ∧ d = ⟨a⟩ := by
  unfold ofAutomaton
  rw [← Automaton.determinismFault?_eq_none_iff]
  cases a.determinismFault? with
  | none => simp [eq_comm]
  | some e => simp

theorem ofAutomaton_eq_error_iff {e : Error} :
    ofAutomaton a = .error e ↔ a.determinismFault? = some e := by
  unfold ofAutomaton
  rcases a.determinismFault? with _ | e'
  · exact iff_of_false nofun nofun
  · exact ⟨fun h => congrArg some (Except.error.inj h),
      fun h => congrArg Except.error (Option.some.inj h)⟩

/-! ## The simulation by a single state -/

theorem successor?_of_targets (h : ∀ u, ⟨s, .char c, u⟩ ∈ d.automaton.transitions ↔ u = t) :
    d.successor? s c = some t := by
  rw [successor?, Relation.targets_eq_singleton_iff.2 h, List.head?_cons]

theorem successor?_of_not_mem (hd : d.automaton.Consistent) (hc : c ∉ d.automaton.alphabet) :
    d.successor? s c = none := by
  rw [successor?, List.head?_eq_none_iff, List.eq_nil_iff_forall_not_mem]
  intro u hu
  have hlabel := hd.label_mem _ (Relation.mem_targets.1 hu)
  exact hc ((Alphabet.admits_char _ c).1 hlabel)

theorem acceptsFrom_iff_leads (hd : d.automaton.Consistent) (hdet : d.automaton.Deterministic)
    (hs : s ∈ d.automaton.states) :
    d.acceptsFrom s w = true ↔
      ∃ t, d.automaton.Leads s w t ∧ t ∈ d.automaton.accepting := by
  induction w generalizing s with
  | nil => simp [acceptsFrom, Automaton.isAccepting, hdet.leads_nil_iff]
  | cons c w ih =>
      by_cases hc : c ∈ d.automaton.alphabet
      · obtain ⟨t, ht⟩ := (Automaton.deterministic_iff.1 hdet).2 s hs c hc
        have htarget : t ∈ d.automaton.states := hd.target_mem _ ((ht t).2 rfl)
        rw [acceptsFrom, successor?_of_targets ht, ih htarget]
        simp only [hdet.leads_cons_iff, ht, exists_eq_left]
      · rw [acceptsFrom, successor?_of_not_mem hd hc]
        simp only [Bool.false_eq_true, false_iff, not_exists, not_and]
        intro u hu
        have hspells := Alphabet.spells_cons.1 (hu.spells hd)
        exact absurd hspells.1 hc

/-- **Following a single state and following a set of states give the same answer.** -/
theorem accepts_eq_accepts (hd : d.automaton.Consistent) (hdet : d.automaton.Deterministic)
    (w : List Char) : d.accepts w = d.automaton.accepts w := by
  rw [Bool.eq_iff_iff, accepts, acceptsFrom_iff_leads hd hdet hd.initial_mem, hd.accepts_iff_leads]

end Dfa
end Determinization
