import Determinization.Proofs.Automaton.Determinism
import Determinization.Proofs.Automaton.Isomorphism
import Mathlib.Data.Finset.Dedup
import Mathlib.Data.Finset.Card

/-!
# Relations as sets in the order of first occurrence

A relation is filled transition by transition, and a transition that is there already is not listed
again.  What comes out of a list is the list without its later repetitions
(`Relation.toList_ofList_eq_eraseDups`): inserting one more transition does to the relation what
putting it at the end does to the list, so this goes by induction from the end.

All views of a relation show the same set of triples.  The targets on a symbol and the moves from a
state are cut out of a list without repetitions, and the part that is cut away of each transition is
the same for all that are left; so nothing is shown twice (`count_targets`, `count_outgoing`), and
parallel transitions with different labels and loops are shown like any others.  Two relations count
as the same exactly if they were filled from lists with the same members.

`IsSetOf` collects this for a relation that was filled from a list, and `build_isSetOf` says that it
is so whenever the transitions are between declared states on declared symbols.
-/

namespace Determinization
namespace Relation

variable {states states' : SortedSet State} {alphabet alphabet' : Alphabet} {s t : State}
  {x : Symbol} {l l' : List Transition} {r : Relation} {u : Transition}

/-! ## Filling a relation -/

/-- A transition that is listed is not listed again. -/
theorem insert_of_mem (h : u ∈ r) : r.insert u = r := dif_pos h

theorem ofList_append_singleton (l : List Transition) (u : Transition) :
    ofList (l ++ [u]) = (ofList l).insert u := by
  simp only [ofList, List.foldl_append, List.foldl_cons, List.foldl_nil]

/-- **A list of transitions is kept without its later repetitions.** -/
theorem toList_ofList_eq_eraseDups (l : List Transition) : (ofList l).toList = l.eraseDups := by
  induction l using List.reverseRecOn with
  | nil => rfl
  | append_singleton l u ih =>
      rw [ofList_append_singleton, List.eraseDups_append, ← ih]
      by_cases h : u ∈ l
      · have hmem : u ∈ ofList l := mem_ofList.2 h
        simp [insert_of_mem hmem, List.removeAll, h]
      · have hmem : u ∉ ofList l := fun hu => h (mem_ofList.1 hu)
        simp [toList_insert hmem, List.removeAll, h, List.eraseDups_cons]

/-- **What is found first in a relation is what was found first in its list.** -/
theorem find?_toList_ofList (p : Transition → Bool) (l : List Transition) :
    (ofList l).toList.find? p = l.find? p := by
  induction l using List.reverseRecOn with
  | nil => rfl
  | append_singleton l u ih =>
      rw [ofList_append_singleton, List.find?_append]
      by_cases h : u ∈ l
      · have hmem : u ∈ ofList l := mem_ofList.2 h
        rw [insert_of_mem hmem, ih]
        cases hfind : l.find? p with
        | some v => rfl
        | none =>
            -- a repetition of what the test refuses is not found either
            simp [List.find?_eq_none.1 hfind u h]
      · have hmem : u ∉ ofList l := fun hu => h (mem_ofList.1 hu)
        rw [toList_insert hmem, List.find?_append, ih]

theorem size_ofList (l : List Transition) : (ofList l).size = l.toFinset.card := by
  have hset : (ofList l).toList.toFinset = l.toFinset := by
    ext u
    simp
  rw [← hset, List.toFinset_card_of_nodup (ofList l).nodup, size]

/-! ## Nothing is shown twice -/

/-- Moves from one state differ in their symbols or their targets. -/
theorem nodup_outgoing (r : Relation) (s : State) : (r.outgoing s).Nodup := by
  refine List.Nodup.map_on ?_ (r.nodup.filter _)
  rintro ⟨s₁, x₁, t₁⟩ h₁ ⟨s₂, x₂, t₂⟩ h₂ heq
  have hs₁ := (List.mem_filter.1 h₁).2
  have hs₂ := (List.mem_filter.1 h₂).2
  simp only [beq_iff_eq] at hs₁ hs₂
  simp only [Prod.mk.injEq] at heq
  rw [hs₁, hs₂, heq.1, heq.2]

theorem count_targets (r : Relation) (s : State) (x : Symbol) (t : State) :
    (r.targets s x).count t = if ⟨s, x, t⟩ ∈ r then 1 else 0 := by
  rw [(r.nodup_targets s x).count]
  exact if_congr mem_targets rfl rfl

theorem count_outgoing (r : Relation) (s : State) (x : Symbol) (t : State) :
    (r.outgoing s).count (x, t) = if ⟨s, x, t⟩ ∈ r then 1 else 0 := by
  rw [(r.nodup_outgoing s).count]
  exact if_congr mem_outgoing rfl rfl

/-- No move is shown from a state that is the source of no transition. -/
theorem outgoing_eq_nil (h : ∀ u ∈ r, u.source ≠ s) : r.outgoing s = [] :=
  List.eq_nil_iff_forall_not_mem.2 fun _ hm => h _ (mem_outgoing.1 hm) rfl

theorem targets_eq_nil (h : ∀ u ∈ r, u.source ≠ s) (x : Symbol) : r.targets s x = [] := by
  rw [targets_eq_filter_outgoing, outgoing_eq_nil h]
  rfl

/-! ## The relation of a list -/

/-- The relation lists the transitions of a list, each where it occurs first, and its size, its
sorted listing, the targets on a symbol and the moves from a state all show the same set. -/
structure IsSetOf (states : SortedSet State) (l : List Transition) (r : Relation) : Prop where
  toList_eq : r.toList = l.eraseDups
  size_eq : r.size = l.toFinset.card
  mem_sorted : ∀ u, u ∈ r.sorted ↔ u ∈ l
  count_targets : ∀ s x t, (r.targets s x).count t = if ⟨s, x, t⟩ ∈ l then 1 else 0
  count_outgoing : ∀ s x t, (r.outgoing s).count (x, t) = if ⟨s, x, t⟩ ∈ l then 1 else 0
  targets_undeclared : ∀ s ∉ states, ∀ x, r.targets s x = []
  outgoing_undeclared : ∀ s ∉ states, r.outgoing s = []

/-- The relation of a list is its set of transitions if they start at declared states. -/
theorem isSetOf_ofList (h : ∀ u ∈ l, u.source ∈ states) : IsSetOf states l (ofList l) := by
  have hsource : ∀ s ∉ states, ∀ u ∈ ofList l, u.source ≠ s := by
    rintro s hs u hu rfl
    exact hs (h u (mem_ofList.1 hu))
  refine ⟨toList_ofList_eq_eraseDups l, size_ofList l, ?_, ?_, ?_, ?_, ?_⟩
  · intro u
    rw [sorted, SortedSet.mem_ofList, mem_toList, mem_ofList]
  · intro s x t
    rw [Relation.count_targets]
    exact if_congr mem_ofList rfl rfl
  · intro s x t
    rw [Relation.count_outgoing]
    exact if_congr mem_ofList rfl rfl
  · exact fun s hs => targets_eq_nil (hsource s hs)
  · exact fun s hs => outgoing_eq_nil (hsource s hs)

/-- **Transitions between declared states on declared symbols make a relation, which is the set of
them in the order of their first occurrences.**  Relations that were made of two lists are the same
exactly if the lists have the same members, whatever states and symbols were declared. -/
theorem build_isSetOf
    (hl : ∀ u ∈ l, u.source ∈ states ∧ u.target ∈ states ∧ alphabet.admits u.label = true)
    (hl' : ∀ u ∈ l', u.source ∈ states' ∧ u.target ∈ states' ∧ alphabet'.admits u.label = true) :
    ∃ r r', build states alphabet l = .ok r ∧ build states' alphabet' l' = .ok r' ∧
      IsSetOf states l r ∧ IsSetOf states' l' r' ∧
      (r.same r' = true ↔ ∀ u, u ∈ l ↔ u ∈ l') := by
  refine ⟨ofList l, ofList l', build_eq_ok_iff.2 ⟨hl, rfl⟩, build_eq_ok_iff.2 ⟨hl', rfl⟩,
    isSetOf_ofList fun u hu => (hl u hu).1, isSetOf_ofList fun u hu => (hl' u hu).1, ?_⟩
  simp only [same_iff, mem_ofList]

/-- Transitions with repetitions, parallel labels and loops, one of them on the empty word. -/
def braid : List Transition :=
  [⟨.simple 0, .char 'b', .dead⟩, ⟨.dead, .epsilon, .dead⟩, ⟨.simple 0, .char 'b', .dead⟩,
    ⟨.simple 0, .char 'a', .dead⟩, ⟨.simple 0, .char 'b', .simple 0⟩, ⟨.dead, .epsilon, .dead⟩]

/-- The same transitions in another order and with other repetitions. -/
def braidReordered : List Transition :=
  [⟨.simple 0, .char 'a', .dead⟩, ⟨.simple 0, .char 'a', .dead⟩, ⟨.simple 0, .char 'b', .simple 0⟩,
    ⟨.dead, .epsilon, .dead⟩, ⟨.simple 0, .char 'b', .dead⟩]

theorem build_isSetOf_braid :
    ∃ r r', build (.ofList [.simple 0, .simple 1, .dead]) (.ofList ['a', 'b']) braid = .ok r ∧
      build (.ofList [.simple 0, .dead]) (.ofList ['a', 'b', 'c']) braidReordered = .ok r' ∧
      r.toList = [⟨.simple 0, .char 'b', .dead⟩, ⟨.dead, .epsilon, .dead⟩,
        ⟨.simple 0, .char 'a', .dead⟩, ⟨.simple 0, .char 'b', .simple 0⟩] ∧
      r.size = 4 ∧ (r.targets (.simple 0) (.char 'b')).count .dead = 1 ∧
      r.outgoing (.simple 2) = [] ∧ r.same r' = true := by
  have hl : ∀ u ∈ braid, u.source ∈ SortedSet.ofList [.simple 0, .simple 1, .dead] ∧
      u.target ∈ SortedSet.ofList [.simple 0, .simple 1, .dead] ∧
      Alphabet.admits (.ofList ['a', 'b']) u.label = true := by decide +kernel
  have hl' : ∀ u ∈ braidReordered, u.source ∈ SortedSet.ofList [.simple 0, .dead] ∧
      u.target ∈ SortedSet.ofList [.simple 0, .dead] ∧
      Alphabet.admits (.ofList ['a', 'b', 'c']) u.label = true := by decide +kernel
  obtain ⟨r, r', hr, hr', hset, -, hsame⟩ := build_isSetOf hl hl'
  refine ⟨r, r', hr, hr', hset.toList_eq.trans (by decide +kernel), ?_, ?_, ?_, hsame.2 ?_⟩
  · rw [hset.size_eq]
    decide +kernel
  · rw [hset.count_targets]
    decide +kernel
  · exact hset.outgoing_undeclared _ (by decide +kernel)
  · intro u
    simp only [braid, braidReordered, List.mem_cons, List.not_mem_nil, or_false]
    grind

end Relation
end Determinization
