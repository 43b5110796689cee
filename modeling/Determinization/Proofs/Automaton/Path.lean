import Determinization.Automaton.Language
import Determinization.Proofs.Search.Exhaustion
import Mathlib.Data.List.Induction

/-!
# Paths through an automaton

A path reads a word: its transitions on characters spell the word, and transitions on the empty
word may stand before, between and after them.  `Automaton.Leads` is that relation between states
and words, given by its own rules and not by a search.  This module shows that the sets which the
library computes are the sets of ends of paths.

* `mem_closure`: the closure of some states holds the ends of silent paths from them.
* `mem_after`: the set followed through a word holds the ends of the paths that read the word.
* `accepts_iff`: a word is accepted exactly when it is over the alphabet and some path that reads
  it ends in an accepting state.

## Early ends

The computation of `accepts` stops at a character outside the alphabet and when no state is left.
The first is the condition on the alphabet in `accepts_iff`; the second changes nothing, because an
empty set stays empty (`run_empty`).
-/

open Relation (ReflTransGen)

namespace Determinization

/-- Every character of the word is in the alphabet. -/
def Alphabet.Spells (A : Alphabet) (w : List Char) : Prop := ∀ c ∈ w, c ∈ A

namespace Alphabet

variable {A : Alphabet} {c : Char} {v w : List Char}

@[simp] theorem spells_nil : A.Spells [] := fun _ h => absurd h List.not_mem_nil

@[simp] theorem spells_cons : A.Spells (c :: w) ↔ c ∈ A ∧ A.Spells w := List.forall_mem_cons

theorem spells_append : A.Spells (v ++ w) ↔ A.Spells v ∧ A.Spells w := List.forall_mem_append

theorem spells_append_singleton : A.Spells (w ++ [c]) ↔ A.Spells w ∧ c ∈ A := by
  rw [spells_append, spells_cons]
  simp

end Alphabet

namespace Automaton

variable {a : Automaton} {s t u : State} {c : Char} {v w : List Char}

/-! ## Silent moves and closures -/

/-- A transition on the empty word leads from one state to another. -/
def Silent (a : Automaton) (s t : State) : Prop := ⟨s, .epsilon, t⟩ ∈ a.transitions

/-- The search for a closure has room for everything that it can find. -/
theorem exists_universe_closure (a : Automaton) (seeds : List State) :
    ∃ whole : List State, whole.length ≤ seeds.length + a.transitions.size ∧
      ∀ t, Search.Joined (fun s => a.transitions.targets s .epsilon) seeds t → t ∈ whole := by
  refine ⟨seeds ++ a.transitions.toList.map Edge.target, ?_, fun t ht => ?_⟩
  · rw [List.length_append, List.length_map, Relation.size]
  · rcases ht.mem_or_mem with ht | ⟨s, hs⟩
    · exact List.mem_append_left _ ht
    · exact List.mem_append_right _ (List.mem_map.2 ⟨_, Relation.mem_targets.1 hs, rfl⟩)

/-- **The closure of some states holds the ends of silent paths from them.** -/
theorem mem_closure {seeds : List State} :
    t ∈ a.closure seeds ↔ ∃ s ∈ seeds, ReflTransGen a.Silent s t := by
  have hsilent : (fun x y => y ∈ a.transitions.targets x .epsilon) = a.Silent := by
    ext x y
    exact Relation.mem_targets
  obtain ⟨whole, hlength, hwhole⟩ := a.exists_universe_closure seeds
  rw [closure, SortedSet.mem_ofList, Search.mem_found_explore hwhole hlength, Search.Joined,
    hsilent]

@[simp] theorem closure_nil : a.closure [] = .empty := by
  refine SortedSet.ext fun t => ?_
  simp [mem_closure]

theorem mem_move {sources : List State} :
    t ∈ a.move sources c ↔
      ∃ s ∈ sources, ∃ u, ⟨s, .char c, u⟩ ∈ a.transitions ∧ ReflTransGen a.Silent u t := by
  simp only [move, mem_closure, List.mem_flatMap, Relation.mem_targets]
  constructor
  · rintro ⟨u, ⟨s, hs, hsu⟩, hut⟩
    exact ⟨s, hs, u, hsu, hut⟩
  · rintro ⟨s, hs, u, hsu, hut⟩
    exact ⟨u, ⟨s, hs, hsu⟩, hut⟩

@[simp] theorem move_nil : a.move [] c = .empty := closure_nil

/-! ## Paths -/

/-- A path from one state to another reads the word. -/
inductive Leads (a : Automaton) : State → List Char → State → Prop where
  | stay (s : State) : Leads a s [] s
  | silent {s t u : State} {w : List Char} (step : ⟨s, .epsilon, t⟩ ∈ a.transitions)
      (rest : Leads a t w u) : Leads a s w u
  | read {s t u : State} {c : Char} {w : List Char} (step : ⟨s, .char c, t⟩ ∈ a.transitions)
      (rest : Leads a t w u) : Leads a s (c :: w) u

/-- Paths compose, and so do the words they read. -/
theorem Leads.append (hst : a.Leads s v t) (htu : a.Leads t w u) : a.Leads s (v ++ w) u := by
  induction hst with
  | stay s => exact htu
  | silent step _ ih => exact Leads.silent step (ih htu)
  | read step _ ih => exact Leads.read step (ih htu)

theorem leads_of_silent (h : ReflTransGen a.Silent s t) : a.Leads s [] t := by
  induction h with
  | refl => exact Leads.stay s
  | tail _ hstep ih => exact ih.append (Leads.silent hstep (Leads.stay _))

theorem leads_nil_iff : a.Leads s [] t ↔ ReflTransGen a.Silent s t := by
  refine ⟨fun h => ?_, leads_of_silent⟩
  generalize hw : ([] : List Char) = w at h
  induction h with
  | stay s => exact ReflTransGen.refl
  | silent step _ ih => exact (ReflTransGen.single step).trans (ih hw)
  | read step _ ih => cases hw

/-- A path that reads a first character moves silently, reads the character, and goes on. -/
theorem leads_cons_iff :
    a.Leads s (c :: w) u ↔
      ∃ p q, ReflTransGen a.Silent s p ∧ ⟨p, .char c, q⟩ ∈ a.transitions ∧ a.Leads q w u := by
  constructor
  · intro h
    -- the induction is on the path, which needs a variable in place of the word
    generalize hw : c :: w = x at h
    induction h with
    | stay s => cases hw
    | silent step _ ih =>
        obtain ⟨p, q, hp, hpq, hq⟩ := ih hw
        exact ⟨p, q, (ReflTransGen.single step).trans hp, hpq, hq⟩
    | @read s t u d x step rest ih =>
        obtain ⟨rfl, rfl⟩ := List.cons.inj hw
        exact ⟨s, t, ReflTransGen.refl, step, rest⟩
  · rintro ⟨p, q, hp, hpq, hq⟩
    exact (leads_of_silent hp).append (Leads.read hpq hq)

/-- A path that reads a concatenation passes from one word to the other somewhere. -/
theorem leads_append_iff :
    a.Leads s (v ++ w) u ↔ ∃ t, a.Leads s v t ∧ a.Leads t w u := by
  refine ⟨fun h => ?_, fun ⟨_, hv, hw⟩ => hv.append hw⟩
  induction v generalizing s with
  | nil => exact ⟨s, Leads.stay s, h⟩
  | cons c v ih =>
      obtain ⟨p, q, hp, hpq, hq⟩ := leads_cons_iff.1 h
      obtain ⟨t, hqt, htu⟩ := ih hq
      exact ⟨t, leads_cons_iff.2 ⟨p, q, hp, hpq, hqt⟩, htu⟩

theorem leads_singleton_iff :
    a.Leads s [c] u ↔
      ∃ p q, ReflTransGen a.Silent s p ∧ ⟨p, .char c, q⟩ ∈ a.transitions ∧
        ReflTransGen a.Silent q u := by
  rw [leads_cons_iff]
  simp only [leads_nil_iff]

/-! ## The set followed through a word -/

/-- The set that a word leads to from a set, where a set is closed after every character. -/
def run (a : Automaton) (S : SortedSet State) (w : List Char) : SortedSet State :=
  w.foldl (fun S c => a.move S.toList c) S

/-- The set of the states in which the automaton can be after the word. -/
def after (a : Automaton) (w : List Char) : SortedSet State := a.run (a.closure [a.initial]) w

@[simp] theorem run_nil (a : Automaton) (S : SortedSet State) : a.run S [] = S := rfl

@[simp] theorem run_cons (a : Automaton) (S : SortedSet State) (c : Char) (w : List Char) :
    a.run S (c :: w) = a.run (a.move S.toList c) w := rfl

theorem run_empty (w : List Char) : a.run .empty w = .empty := by
  induction w with
  | nil => rfl
  | cons c w ih => rw [run_cons, SortedSet.toList_empty, move_nil, ih]

theorem after_nil (a : Automaton) : a.after [] = a.closure [a.initial] := rfl

theorem after_append_singleton (a : Automaton) (w : List Char) (c : Char) :
    a.after (w ++ [c]) = a.move (a.after w).toList c := by
  rw [after, run, List.foldl_append, List.foldl_cons, List.foldl_nil, after, run]

/-- **The set followed through a word holds the ends of the paths that read it.** -/
theorem mem_after : t ∈ a.after w ↔ a.Leads a.initial w t := by
  induction w using List.reverseRecOn generalizing t with
  | nil =>
      rw [after_nil, mem_closure, leads_nil_iff]
      simp
  | append_singleton w c ih =>
      rw [after_append_singleton, mem_move, leads_append_iff]
      simp only [SortedSet.mem_toList, ih, leads_singleton_iff]
      constructor
      · rintro ⟨s, hs, u, hsu, hut⟩
        exact ⟨s, hs, s, u, ReflTransGen.refl, hsu, hut⟩
      · rintro ⟨s, hs, p, q, hsp, hpq, hqt⟩
        have hp : a.Leads a.initial w p := by simpa using hs.append (leads_of_silent hsp)
        exact ⟨p, hp, q, hpq, hqt⟩

/-! ## Acceptance -/

theorem isAcceptingSet_eq_true_iff {l : List State} :
    a.isAcceptingSet l = true ↔ ∃ t ∈ l, t ∈ a.accepting := by
  simp [isAcceptingSet, isAccepting]

/-- An early end at a set without states does not change the answer. -/
theorem acceptsFrom_iff (S : SortedSet State) :
    a.acceptsFrom S.toList w = true ↔
      a.alphabet.Spells w ∧ ∃ t ∈ a.run S w, t ∈ a.accepting := by
  induction w generalizing S with
  | nil =>
      rw [acceptsFrom, isAcceptingSet_eq_true_iff]
      simp
  | cons c w ih =>
      rw [acceptsFrom, run_cons, Alphabet.spells_cons, and_assoc]
      by_cases hc : c ∈ a.alphabet
      · rw [if_pos hc, ← ih]
        cases hnext : (a.move S.toList c).toList with
        | cons s next => simp [hc]
        | nil =>
            -- the early end: from the empty set no word reaches an accepting state
            have hempty : a.move S.toList c = .empty := SortedSet.toList_injective hnext
            have hfalse := ih .empty
            rw [run_empty, SortedSet.toList_empty] at hfalse
            simpa [hc] using hfalse
      · simp [hc]

/-- **A word is accepted exactly when it is over the alphabet and a path that reads it ends in an
accepting state.** -/
theorem accepts_iff :
    a.accepts w = true ↔
      a.alphabet.Spells w ∧ ∃ t, a.Leads a.initial w t ∧ t ∈ a.accepting := by
  rw [accepts, acceptsFrom_iff, ← after]
  simp only [mem_after]

end Automaton
end Determinization
