import Determinization.Proofs.Automaton.FirstOccurrence
import Mathlib.Data.Set.Card

/-!
# Why an automaton is not deterministic

`Dfa.ofAutomaton` refuses an automaton that is not deterministic and complete, and says why.  A
transition on the empty word is reported before anything else, and of several the one that was
inserted first, so the order of insertion shows in the error.  A transition that was inserted again
counts where it was inserted first: the search through the relation finds what a search through the
list of all insertions would find (`Relation.find?_toList_ofList`).

If there is none, the pairs of a state and a character are gone through in their orders, and the
first is reported whose number of targets is not one, together with that number.  A relation lists
no target twice, so the number that is counted is the number of different targets
(`Automaton.targetNumber_eq_length`).  Unreachable states are gone through like the rest.
-/

namespace Determinization
namespace Automaton

variable {a : Automaton} {s : State} {c : Char} {e : Error} {l : List Transition}

/-- The number of different targets of a state on a character. -/
noncomputable def targetNumber (a : Automaton) (s : State) (c : Char) : Nat :=
  Set.ncard {t | (⟨s, .char c, t⟩ : Transition) ∈ a.transitions}

/-- **Counting the listed targets counts the different ones.** -/
theorem targetNumber_eq_length (a : Automaton) (s : State) (c : Char) :
    a.targetNumber s c = (a.transitions.targets s (.char c)).length := by
  have hset : {t | (⟨s, .char c, t⟩ : Transition) ∈ a.transitions} =
      ((a.transitions.targets s (.char c)).toFinset : Set State) := by
    ext t
    simp [Relation.mem_targets]
  rw [targetNumber, hset, Set.ncard_coe_finset,
    List.toFinset_card_of_nodup (a.transitions.nodup_targets s (.char c))]

/-- Why the automaton is not deterministic in the first place, when its transitions were inserted
one after the other in the order of the list. -/
inductive FirstViolation (a : Automaton) (l : List Transition) : Error → Prop where
  | silent {before after : List Transition} {t : Transition} (split : l = before ++ t :: after)
      (earlier : ∀ u ∈ before, u.label ≠ .epsilon) (label_eq : t.label = .epsilon) :
      FirstViolation a l (.undeclaredSymbol t)
  | count {s : State} {c : Char} (audible : ∀ u ∈ l, u.label ≠ .epsilon) (state_mem : s ∈ a.states)
      (character_mem : c ∈ a.alphabet) (ne_one : a.targetNumber s c ≠ 1)
      (earlier : ∀ p ∈ a.states, ∀ d ∈ a.alphabet,
        Ordered.Lt p s ∨ p = s ∧ Ordered.Lt d c → a.targetNumber p d = 1) :
      FirstViolation a l (.targetCount s c (a.targetNumber s c))

/-- Determinism in terms of what was inserted and of what is there. -/
theorem deterministic_iff_existsUnique (hl : a.transitions = .ofList l) :
    a.Deterministic ↔
      (∀ u ∈ l, u.label ≠ .epsilon) ∧
        ∀ s ∈ a.states, ∀ c ∈ a.alphabet, ∃! t, ⟨s, .char c, t⟩ ∈ a.transitions := by
  have hunique : ∀ s c, (∃ t, ∀ u, ⟨s, .char c, u⟩ ∈ a.transitions ↔ u = t) ↔
      ∃! t, (⟨s, .char c, t⟩ : Transition) ∈ a.transitions := by
    intro s c
    constructor
    · rintro ⟨t, ht⟩
      exact ⟨t, (ht t).2 rfl, fun u hu => (ht u).1 hu⟩
    · rintro ⟨t, ht, hu⟩
      exact ⟨t, fun u => ⟨hu u, fun h => h ▸ ht⟩⟩
  have hsilent : (∀ u ∈ a.transitions, u.label ≠ .epsilon) ↔ ∀ u ∈ l, u.label ≠ .epsilon := by
    simp only [hl, Relation.mem_ofList]
  simp only [deterministic_iff, hsilent, hunique]

/-! ## Transitions on the empty word -/

theorem find?_epsilon_eq_some_iff {t : Transition} :
    (l.find? fun t => t.label.isEpsilon) = some t ↔
      ∃ before after, l = before ++ t :: after ∧ (∀ u ∈ before, u.label ≠ .epsilon) ∧
        t.label = .epsilon := by
  rw [List.find?_eq_some_iff_append]
  simp only [Symbol.isEpsilon_iff, Bool.not_eq_true', ← Bool.not_eq_true, ne_eq]
  constructor
  · rintro ⟨hlabel, before, after, hsplit, hearlier⟩
    exact ⟨before, after, hsplit, hearlier, hlabel⟩
  · rintro ⟨before, after, hsplit, hearlier, hlabel⟩
    exact ⟨hlabel, before, after, hsplit, hearlier⟩

theorem find?_epsilon_eq_none_iff :
    (l.find? fun t => t.label.isEpsilon) = none ↔ ∀ u ∈ l, u.label ≠ .epsilon := by
  simp only [List.find?_eq_none, Symbol.isEpsilon_iff, ne_eq]

/-! ## States and characters -/

theorem targetFault?_eq_some_iff :
    a.targetFault? s c = some e ↔
      a.targetNumber s c ≠ 1 ∧ e = .targetCount s c (a.targetNumber s c) := by
  rw [targetFault?, targetNumber_eq_length]
  by_cases h : (a.transitions.targets s (.char c)).length = 1
  · simp [h]
  · simp [h, eq_comm]

/-- What is found among the pairs is found at the first of them that does not have one target. -/
theorem findSome?_targetFault?_eq_some_iff :
    (a.states.toList.flatMap fun s => a.alphabet.toList.map fun c => (s, c)).findSome?
        (fun p => a.targetFault? p.1 p.2) = some e ↔
      ∃ s ∈ a.states, ∃ c ∈ a.alphabet, a.targetNumber s c ≠ 1 ∧
        e = .targetCount s c (a.targetNumber s c) ∧
        ∀ p ∈ a.states, ∀ d ∈ a.alphabet,
          Ordered.Lt p s ∨ p = s ∧ Ordered.Lt d c → a.targetNumber p d = 1 := by
  have hmem : ∀ p : State × Char,
      p ∈ (a.states.toList.flatMap fun s => a.alphabet.toList.map fun c => (s, c)) ↔
        p.1 ∈ a.states ∧ p.2 ∈ a.alphabet := by
    rintro ⟨s, c⟩
    simp
  rw [Ordered.findSome?_eq_some_iff
    (Ordered.pairwise_pairs a.states.increasing a.alphabet.increasing)]
  simp only [hmem, targetFault?_eq_some_iff, targetFault?_eq_none_iff, ← targetNumber_eq_length,
    Ordered.lt_prod_iff, Prod.exists, Prod.forall]
  constructor
  · rintro ⟨s, c, ⟨hs, hc⟩, ⟨hne, he⟩, hearlier⟩
    exact ⟨s, hs, c, hc, hne, he, fun p hp d hd => hearlier p d ⟨hp, hd⟩⟩
  · rintro ⟨s, hs, c, hc, hne, he, hearlier⟩
    exact ⟨s, c, ⟨hs, hc⟩, ⟨hne, he⟩, fun p d hpd => hearlier p hpd.1 d hpd.2⟩

/-- **The first violation is found.** -/
theorem determinismFault?_eq_some_iff (hl : a.transitions = .ofList l) :
    a.determinismFault? = some e ↔ FirstViolation a l e := by
  unfold determinismFault?
  rw [hl, Relation.find?_toList_ofList]
  cases hfind : l.find? fun t => t.label.isEpsilon with
  | some t =>
      obtain ⟨before, after, hsplit, hearlier, hlabel⟩ := find?_epsilon_eq_some_iff.1 hfind
      simp only [Option.some.injEq]
      constructor
      · rintro rfl
        exact .silent hsplit hearlier hlabel
      · intro h
        cases h with
        | silent split earlier label_eq =>
            have hfind' := find?_epsilon_eq_some_iff.2 ⟨_, _, split, earlier, label_eq⟩
            rw [hfind, Option.some.injEq] at hfind'
            rw [hfind']
        | count audible =>
            have hmem : t ∈ l := List.mem_of_find?_eq_some hfind
            exact absurd hlabel (audible t hmem)
  | none =>
      rw [find?_epsilon_eq_none_iff] at hfind
      simp only [findSome?_targetFault?_eq_some_iff]
      constructor
      · rintro ⟨s, hs, c, hc, hne, rfl, hearlier⟩
        exact .count hfind hs hc hne hearlier
      · intro h
        cases h with
        | silent split earlier label_eq =>
            exact absurd label_eq (hfind _ (split ▸ List.mem_append_right _ List.mem_cons_self))
        | count audible state_mem character_mem ne_one earlier =>
            exact ⟨_, state_mem, _, character_mem, ne_one, rfl, earlier⟩

end Automaton

namespace Dfa

variable {a : Automaton} {l : List Transition}

open Automaton (FirstViolation)

/-- **The check for determinism is exact.**  It succeeds exactly on automata without transitions on
the empty word in which every declared state has one target on every character, and hands them on as
they are; otherwise it reports the first violation.  Every automaton is of this kind, with its own
listing for the list if nothing else is known of how its relation was filled. -/
theorem ofAutomaton_reports (hl : a.transitions = .ofList l) :
    (∀ d, ofAutomaton a = .ok d ↔
      ((∀ u ∈ l, u.label ≠ .epsilon) ∧
        ∀ s ∈ a.states, ∀ c ∈ a.alphabet, ∃! t, ⟨s, .char c, t⟩ ∈ a.transitions) ∧
      d.automaton = a) ∧
    ∀ e, ofAutomaton a = .error e ↔ FirstViolation a l e := by
  refine ⟨fun d => ?_, fun e => ?_⟩
  · have hautomaton : d = ⟨a⟩ ↔ d.automaton = a := by
      obtain ⟨b⟩ := d
      simp
    rw [ofAutomaton_eq_ok_iff, Automaton.deterministic_iff_existsUnique hl, hautomaton]
  · rw [ofAutomaton_eq_error_iff, Automaton.determinismFault?_eq_some_iff hl]

/-- Transitions on the empty word, the first of which is inserted once more at the end. -/
def murmurs : List Transition :=
  [⟨.dead, .char 'a', .simple 0⟩, ⟨.dead, .epsilon, .simple 0⟩, ⟨.simple 0, .epsilon, .dead⟩,
    ⟨.dead, .epsilon, .simple 0⟩]

/-- Two targets of a state on a character, one of them inserted twice, and a state without any. -/
def forks : List Transition :=
  [⟨.simple 0, .char 'b', .simple 0⟩, ⟨.simple 0, .char 'a', .simple 0⟩,
    ⟨.simple 1, .char 'a', .simple 2⟩, ⟨.simple 1, .char 'b', .simple 0⟩,
    ⟨.simple 0, .char 'a', .simple 0⟩, ⟨.simple 1, .char 'b', .simple 1⟩,
    ⟨.simple 1, .char 'b', .simple 0⟩]

/-- Three states, the first of which is initial and leads to none of the others. -/
def forked : Automaton :=
  .ofParts [.simple 0, .simple 1, .simple 2] (.ofList ['a', 'b']) forks (.simple 0) []

/-- The transition that is reported was inserted before one that comes before it in the order, and
the pair that is reported is of a state that the initial state does not lead to. -/
theorem ofAutomaton_reports_murmurs :
    ofAutomaton (.ofParts [.simple 0, .dead] (.ofList ['a']) murmurs (.simple 0) []) =
        .error (.undeclaredSymbol ⟨.dead, .epsilon, .simple 0⟩) ∧
      ofAutomaton forked = .error (.targetCount (.simple 1) 'b' 2) := by
  constructor
  · have hsplit : murmurs = [⟨.dead, .char 'a', .simple 0⟩] ++ ⟨.dead, .epsilon, .simple 0⟩ ::
        [⟨.simple 0, .epsilon, .dead⟩, ⟨.dead, .epsilon, .simple 0⟩] := rfl
    exact ((ofAutomaton_reports rfl).2 _).2 (.silent hsplit (by simp) rfl)
  · have hcount : forked.targetNumber (.simple 1) 'b' = 2 := by
      rw [Automaton.targetNumber_eq_length]
      decide +kernel
    have hearlier : (forked.states.toList.all fun p => forked.alphabet.toList.all fun d =>
        decide (Ordered.Lt p (.simple 1) ∨ p = .simple 1 ∧ Ordered.Lt d 'b' →
          (forked.transitions.targets p (.char d)).length = 1)) = true := by decide +kernel
    simp only [List.all_eq_true, decide_eq_true_eq, SortedSet.mem_toList] at hearlier
    rw [← hcount]
    refine ((ofAutomaton_reports rfl).2 _).2 ?_
    refine .count (by decide) (by decide +kernel) (by decide +kernel) (by simp [hcount]) ?_
    simpa only [Automaton.targetNumber_eq_length] using hearlier

end Dfa
end Determinization
