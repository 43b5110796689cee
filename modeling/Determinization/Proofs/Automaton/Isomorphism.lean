import Determinization.Proofs.Automaton.Renaming
import Mathlib.Data.Set.Function

/-!
# Isomorphic automata

Two automata are isomorphic when a function maps the reachable states of the one one to one onto
those of the other, and takes the initial state, the transitions and the accepting states along
(`Isomorphism`).  Over one alphabet this is the same as a renaming of the reachable part: an
isomorphism is a renaming that happens to be a function (`Isomorphism.renaming`), and every renaming
gives each reachable state exactly one name (`Renaming.exists_isomorphism`).  The first notion is
what one would write down for graphs; the second composes (`Renaming.trans`) and can be undone,
which is what proofs need.

Automata that are the same up to the order in which their transitions were given are isomorphic by
the identity (`renaming_of_same`).  Whether a given function is an isomorphism can be computed,
because the search for reachable states is exact (`isomorphism_iff`).
-/

namespace Determinization

/-- Relations with the same transitions list them in another order at most. -/
theorem Relation.perm_of_mem_iff {r r' : Relation} (h : ∀ t, t ∈ r ↔ t ∈ r') :
    r.toList.Perm r'.toList := (List.perm_ext_iff_of_nodup r.nodup r'.nodup).2 h

/-- Comparing the sizes first changes nothing: relations with the same transitions have as many. -/
theorem Relation.same_iff {r r' : Relation} : r.same r' = true ↔ ∀ t, t ∈ r ↔ t ∈ r' := by
  have hsorted : r.sorted = r'.sorted ↔ ∀ t, t ∈ r ↔ t ∈ r' := SortedSet.ofList_eq_ofList
  rw [same, Bool.and_eq_true, beq_iff_eq, beq_iff_eq, hsorted, and_iff_right_iff_imp]
  exact fun h => (perm_of_mem_iff h).length_eq

namespace Automaton

variable {R R' : State → State → Prop} {a b c : Automaton} {f : State → State} {s : State}

/-! ## The same automaton -/

theorem same_iff :
    a.same b = true ↔ a.states = b.states ∧ a.alphabet = b.alphabet ∧
      (∀ t, t ∈ a.transitions ↔ t ∈ b.transitions) ∧ a.initial = b.initial ∧
      a.accepting = b.accepting := by
  simp only [same, Bool.and_eq_true, beq_iff_eq, Relation.same_iff, and_assoc]

theorem same_refl (a : Automaton) : a.same a = true :=
  same_iff.2 ⟨rfl, rfl, fun _ => Iff.rfl, rfl, rfl⟩

theorem same_symm (h : a.same b = true) : b.same a = true := by
  obtain ⟨hstates, halphabet, htransitions, hinitial, haccepting⟩ := same_iff.1 h
  exact same_iff.2 ⟨hstates.symm, halphabet.symm, fun t => (htransitions t).symm, hinitial.symm,
    haccepting.symm⟩

theorem same_trans (hab : a.same b = true) (hbc : b.same c = true) : a.same c = true := by
  obtain ⟨hstates, halphabet, htransitions, hinitial, haccepting⟩ := same_iff.1 hab
  obtain ⟨hstates', halphabet', htransitions', hinitial', haccepting'⟩ := same_iff.1 hbc
  exact same_iff.2 ⟨hstates.trans hstates', halphabet.trans halphabet',
    fun t => (htransitions t).trans (htransitions' t), hinitial.trans hinitial',
    haccepting.trans haccepting'⟩

/-- What is the same differs in no name. -/
theorem renaming_of_same (h : a.same b = true) : Renaming (· = ·) a b := by
  obtain ⟨-, halphabet, htransitions, hinitial, haccepting⟩ := same_iff.1 h
  refine ⟨⟨fun _ _ _ hs ht => hs.trans ht.symm, fun _ _ _ hs ht => hs.symm.trans ht⟩, halphabet,
    hinitial, ?_, ?_, ?_⟩
  · rintro s _ x t rfl hstep
    exact ⟨t, rfl, (htransitions _).1 hstep⟩
  · rintro s _ x t rfl hstep
    exact ⟨t, rfl, (htransitions _).2 hstep⟩
  · rintro s _ rfl
    rw [haccepting]

/-! ## Renamings and isomorphisms -/

/-- Renamings compose. -/
theorem Renaming.trans (hab : Renaming R a b) (hbc : Renaming R' b c) :
    Renaming (Relation.Comp R R') a c where
  unique := by
    constructor
    · rintro s t u ⟨s', hs, hs'⟩ ⟨t', ht, ht'⟩
      obtain rfl := hbc.unique.1 hs' ht'
      exact hab.unique.1 hs ht
    · rintro s t u ⟨t', ht, ht'⟩ ⟨u', hu, hu'⟩
      obtain rfl := hab.unique.2 ht hu
      exact hbc.unique.2 ht' hu'
  alphabet_eq := hab.alphabet_eq.trans hbc.alphabet_eq
  initial := ⟨b.initial, hab.initial, hbc.initial⟩
  forth := by
    rintro s s'' x t ⟨s', hs, hs'⟩ hstep
    obtain ⟨t', ht, hstep'⟩ := hab.forth hs hstep
    obtain ⟨t'', ht', hstep''⟩ := hbc.forth hs' hstep'
    exact ⟨t'', ⟨t', ht, ht'⟩, hstep''⟩
  back := by
    rintro s s'' x t'' ⟨s', hs, hs'⟩ hstep''
    obtain ⟨t', ht', hstep'⟩ := hbc.back hs' hstep''
    obtain ⟨t, ht, hstep⟩ := hab.back hs hstep'
    exact ⟨t, ⟨t', ht, ht'⟩, hstep⟩
  accepting_iff := by
    rintro s s'' ⟨s', hs, hs'⟩
    exact (hab.accepting_iff hs).trans (hbc.accepting_iff hs')

/-- The function maps the reachable states of one automaton one to one onto those of another, the
initial state to the initial state, transitions onto transitions with the same symbols, and
accepting states onto accepting states. -/
structure Isomorphism (f : State → State) (a b : Automaton) : Prop where
  bijOn : Set.BijOn f {s | a.Reachable s} {s | b.Reachable s}
  initial_eq : f a.initial = b.initial
  mem_transitions_iff : ∀ {s x t}, a.Reachable s → a.Reachable t →
    (⟨s, x, t⟩ ∈ a.transitions ↔ ⟨f s, x, f t⟩ ∈ b.transitions)
  mem_accepting_iff : ∀ {s}, a.Reachable s → (s ∈ a.accepting ↔ f s ∈ b.accepting)

/-- An isomorphism renames the reachable part. -/
theorem Isomorphism.renaming (h : Isomorphism f a b) (halphabet : a.alphabet = b.alphabet) :
    Renaming (fun s s' => a.Reachable s ∧ s' = f s) a b where
  unique := by
    constructor
    · rintro s t u ⟨hs, rfl⟩ ⟨ht, heq⟩
      exact h.bijOn.injOn hs ht heq
    · rintro s t u ⟨-, rfl⟩ ⟨-, rfl⟩
      rfl
  alphabet_eq := halphabet
  initial := ⟨a.reachable_initial, h.initial_eq.symm⟩
  forth := by
    rintro s s' x t ⟨hs, rfl⟩ hstep
    have ht := hs.target hstep
    exact ⟨f t, ⟨ht, rfl⟩, (h.mem_transitions_iff hs ht).1 hstep⟩
  back := by
    rintro s s' x t' ⟨hs, rfl⟩ hstep
    -- the target is reachable, so it is the image of a reachable state
    have hfs : b.Reachable (f s) := h.bijOn.mapsTo hs
    obtain ⟨t, ht, rfl⟩ := h.bijOn.surjOn (hfs.target hstep)
    exact ⟨t, ⟨ht, rfl⟩, (h.mem_transitions_iff hs ht).2 hstep⟩
  accepting_iff := by
    rintro s s' ⟨hs, rfl⟩
    exact h.mem_accepting_iff hs

/-- **A renaming of the reachable part is an isomorphism.** -/
theorem Renaming.exists_isomorphism (h : Renaming R a b) : ∃ f, Isomorphism f a b := by
  have hname : ∀ s, ∃ s', a.Reachable s → R s s' := by
    intro s
    by_cases hs : a.Reachable s
    · obtain ⟨s', hs'⟩ := h.exists_of_reachable hs
      exact ⟨s', fun _ => hs'⟩
    · exact ⟨s, fun hs' => absurd hs' hs⟩
  obtain ⟨f, hf⟩ := Classical.skolem.1 hname
  refine ⟨f, ⟨?_, ?_, ?_⟩, ?_, ?_, ?_⟩
  · intro s hs
    exact (h.reachable_iff (hf s hs)).1 hs
  · intro s hs t ht heq
    have hft : R t (f s) := heq ▸ hf t ht
    exact h.unique.1 (hf s hs) hft
  · intro s' hs'
    obtain ⟨s, hss'⟩ := h.symm.exists_of_reachable hs'
    have hs : a.Reachable s := (h.reachable_iff hss').2 hs'
    exact ⟨s, hs, h.unique.2 (hf s hs) hss'⟩
  · exact h.unique.2 (hf a.initial a.reachable_initial) h.initial
  · intro s x t hs ht
    constructor
    · intro hstep
      obtain ⟨t', htt', hstep'⟩ := h.forth (hf s hs) hstep
      rwa [h.unique.2 (hf t ht) htt']
    · intro hstep'
      obtain ⟨u, hu, hstep⟩ := h.back (hf s hs) hstep'
      rwa [h.unique.1 (hf t ht) hu]
  · intro s hs
    exact h.accepting_iff (hf s hs)

/-- Renamings are isomorphisms of automata over one alphabet. -/
theorem exists_renaming_iff :
    (∃ R, Renaming R a b) ↔ a.alphabet = b.alphabet ∧ ∃ f, Isomorphism f a b := by
  constructor
  · rintro ⟨R, h⟩
    exact ⟨h.alphabet_eq, h.exists_isomorphism⟩
  · rintro ⟨halphabet, f, h⟩
    exact ⟨_, h.renaming halphabet⟩

/-! ## Checking that a function is an isomorphism -/

theorem Isomorphism.image_reachable (h : Isomorphism f a b) :
    a.reachable.image f = b.reachable := by
  refine SortedSet.ext fun s' => ?_
  rw [SortedSet.mem_image, mem_reachable]
  constructor
  · rintro ⟨s, hs, rfl⟩
    exact h.bijOn.mapsTo (mem_reachable.1 hs)
  · intro hs'
    obtain ⟨s, hs, rfl⟩ := h.bijOn.surjOn hs'
    exact ⟨s, mem_reachable.2 hs, rfl⟩

theorem Isomorphism.mem_map_transitions (h : Isomorphism f a b) {t' : Transition} :
    t' ∈ a.removeUnreachable.transitions.toList.map (Edge.map f) ↔
      t' ∈ b.removeUnreachable.transitions := by
  obtain ⟨s', x, t'⟩ := t'
  rw [List.mem_map, mem_transitions_removeUnreachable]
  constructor
  · rintro ⟨⟨s, y, t⟩, hstep, ⟨⟩⟩
    obtain ⟨hstep, hs⟩ := mem_transitions_removeUnreachable.1 hstep
    exact ⟨(h.mem_transitions_iff hs (hs.target hstep)).1 hstep, h.bijOn.mapsTo hs⟩
  · rintro ⟨hstep', hs'⟩
    obtain ⟨s, hs, rfl⟩ := h.bijOn.surjOn hs'
    obtain ⟨t, ht, rfl⟩ := h.bijOn.surjOn (hs'.target hstep')
    have hstep := (h.mem_transitions_iff hs ht).2 hstep'
    exact ⟨⟨s, x, t⟩, mem_transitions_removeUnreachable.2 ⟨hstep, hs⟩, rfl⟩

theorem Isomorphism.image_accepting (h : Isomorphism f a b) :
    a.removeUnreachable.accepting.image f = b.removeUnreachable.accepting := by
  refine SortedSet.ext fun s' => ?_
  rw [SortedSet.mem_image, mem_accepting_removeUnreachable]
  constructor
  · rintro ⟨s, hs, rfl⟩
    obtain ⟨hacc, hreach⟩ := mem_accepting_removeUnreachable.1 hs
    exact ⟨(h.mem_accepting_iff hreach).1 hacc, h.bijOn.mapsTo hreach⟩
  · rintro ⟨hacc, hs'⟩
    obtain ⟨s, hs, rfl⟩ := h.bijOn.surjOn hs'
    exact ⟨s, mem_accepting_removeUnreachable.2 ⟨(h.mem_accepting_iff hs).2 hacc, hs⟩, rfl⟩

/-- **A function is an isomorphism when it takes one pruned automaton to the other**, and different
states to different states.  This can be computed. -/
theorem isomorphism_iff :
    Isomorphism f a b ↔
      (∀ s ∈ a.reachable.toList, ∀ t ∈ a.reachable.toList, f s = f t → s = t) ∧
        a.reachable.image f = b.reachable ∧ f a.initial = b.initial ∧
        SortedSet.ofList (a.removeUnreachable.transitions.toList.map (Edge.map f)) =
          b.removeUnreachable.transitions.sorted ∧
        a.removeUnreachable.accepting.image f = b.removeUnreachable.accepting := by
  constructor
  · intro h
    refine ⟨?_, h.image_reachable, h.initial_eq, ?_, h.image_accepting⟩
    · intro s hs t ht heq
      exact h.bijOn.injOn (mem_reachable.1 hs) (mem_reachable.1 ht) heq
    · exact SortedSet.ofList_eq_ofList.2 fun _ => h.mem_map_transitions
  · rintro ⟨hinj, hstates, hinitial, htransitions, haccepting⟩
    have hinj' : Set.InjOn f {s | a.Reachable s} := fun s hs t ht heq =>
      hinj s (mem_reachable.2 hs) t (mem_reachable.2 ht) heq
    have hmaps : ∀ s, a.Reachable s → b.Reachable (f s) := by
      intro s hs
      rw [← mem_reachable, ← hstates, SortedSet.mem_image]
      exact ⟨s, mem_reachable.2 hs, rfl⟩
    refine ⟨⟨hmaps, hinj', ?_⟩, hinitial, ?_, ?_⟩
    · intro s' hs'
      have hs' : b.Reachable s' := hs'
      rw [← mem_reachable, ← hstates, SortedSet.mem_image] at hs'
      obtain ⟨s, hs, rfl⟩ := hs'
      exact ⟨s, mem_reachable.1 hs, rfl⟩
    · intro s x t hs ht
      have hmem := SortedSet.ofList_eq_ofList.1 htransitions ⟨f s, x, f t⟩
      rw [List.mem_map, Relation.mem_toList, mem_transitions_removeUnreachable] at hmem
      constructor
      · intro hstep
        exact (hmem.1 ⟨⟨s, x, t⟩, mem_transitions_removeUnreachable.2 ⟨hstep, hs⟩, rfl⟩).1
      · intro hstep'
        obtain ⟨⟨u, y, v⟩, hstep, heq⟩ := hmem.2 ⟨hstep', hmaps s hs⟩
        obtain ⟨hstep, hu⟩ := mem_transitions_removeUnreachable.1 hstep
        simp only [Edge.map, Edge.mk.injEq] at heq
        obtain ⟨hus, rfl, hvt⟩ := heq
        rwa [← hinj' hu hs hus, ← hinj' (hu.target hstep) ht hvt]
    · intro s hs
      have hmem : f s ∈ a.removeUnreachable.accepting.image f ↔ f s ∈ b.accepting := by
        rw [haccepting, mem_accepting_removeUnreachable, and_iff_left (hmaps s hs)]
      rw [← hmem, SortedSet.mem_image]
      constructor
      · intro hacc
        exact ⟨s, mem_accepting_removeUnreachable.2 ⟨hacc, hs⟩, rfl⟩
      · rintro ⟨t, ht, heq⟩
        obtain ⟨hacc, htr⟩ := mem_accepting_removeUnreachable.1 ht
        rwa [← hinj' htr hs heq]

instance (f : State → State) (a b : Automaton) : Decidable (Isomorphism f a b) :=
  decidable_of_iff _ isomorphism_iff.symm

end Automaton
end Determinization
