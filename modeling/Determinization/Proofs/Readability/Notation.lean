import Determinization.Proofs.Automaton.Isomorphism
import Determinization.Proofs.Readability.States
import Determinization.SetNotation

/-!
# What the set notation says of an automaton

All five components can be read off the set notation, with one exception: a transition on the
character `ε` and one on the empty word look the same.  So two automata have the same notation
exactly if they have the same states, alphabet, initial state and accepting states, and transitions
that look alike one by one (`Automaton.LooksLike`).  If `ε` is not in the alphabet, then they are
the same automaton.

Nothing is escaped in the notation, and symbols may be braces, brackets or Greek letters.  This does
no harm in the alphabet, where every symbol is a single character at a place that is known: after
the opening brace, and after each comma and its space.  What closes the alphabet is the brace before
the line break.

With `ε` in the alphabet the two kinds of transitions are really confused
(`exists_setNotation_eq_of_not_same`).
-/

namespace Determinization

open Encoding (endsNumber_cons)

variable {a b : Automaton} {name : Char} {u v x y : List Char}

namespace Text

/-- A single character is readable, whatever it is. -/
theorem readable_singleton (c : Char) : Readable (fun d => [d]) c := by
  intro d u v _ _ h
  exact List.cons.inj h

end Text

/-- **An alphabet can be read off its line.** -/
theorem Alphabet.text_inj {A B : Alphabet} (h : A.text ++ '\n' :: u = B.text ++ '\n' :: v) :
    A = B ∧ u = v := by
  have hline : ∀ (C : Alphabet) w, C.text ++ '\n' :: w =
      '\x7b' :: (Text.join [',', ' '] (C.toList.map fun c => [c]) ++ (['\x7d', '\n'] ++ w)) := by
    intro C w
    simp [Alphabet.text, Text.braced]
  rw [hline, hline, List.cons.injEq] at h
  suffices hlist : A.toList = B.toList ∧ u = v from
    ⟨SortedSet.toList_injective hlist.1, hlist.2⟩
  cases hA : A.toList with
  | nil =>
      cases hB : B.toList with
      | nil =>
          simp only [hA, hB, true_and] at h
          exact ⟨rfl, List.append_cancel_left h⟩
      | cons d m =>
          -- a closing brace as the only symbol is followed by another one
          cases m <;> simp [hA, hB, Text.join_cons] at h
  | cons c l =>
      cases hB : B.toList with
      | nil => cases l <;> simp [hA, hB, Text.join_cons] at h
      | cons d m =>
          rw [hA, hB] at h
          exact Text.join_inj (by decide) (by decide) (by decide)
            (fun c _ => Text.readable_singleton c) (List.cons_ne_nil c l) (List.cons_ne_nil d m) h.2

namespace Automaton

/-- The automata are the same, but for the looks of the empty word and the character `ε`. -/
structure LooksLike (a b : Automaton) : Prop where
  states_eq : a.states = b.states
  alphabet_eq : a.alphabet = b.alphabet
  transitions_like :
    List.Forall₂ Transition.LooksLike a.transitions.sorted.toList b.transitions.sorted.toList
  initial_eq : a.initial = b.initial
  accepting_eq : a.accepting = b.accepting

/-- The lines one after the other, each with what stands behind it. -/
theorem setNotationWith_eq (a : Automaton) (name : Char) :
    a.setNotationWith name =
      ['K', ' ', '=', ' '] ++ (State.listText a.states.toList ++ ('\n' :: (['Σ', ' ', '=', ' '] ++
        (a.alphabet.text ++ ('\n' :: ([name, ' ', '=', ' '] ++
          (Text.braced (a.transitions.sorted.toList.map Transition.text) ++
            ('\n' :: (['s', ' ', '=', ' '] ++ (a.initial.text ++ ('\n' ::
              (['A', ' ', '=', ' '] ++
                (State.listText a.accepting.toList ++ ['\n']))))))))))))) := by
  simp [setNotationWith]

/-- **The notation says everything but which transitions are on the empty word.** -/
theorem looksLike_of_setNotationWith (h : a.setNotationWith name = b.setNotationWith name) :
    a.LooksLike b := by
  rw [setNotationWith_eq, setNotationWith_eq] at h
  obtain ⟨hstates, h⟩ := State.listText_inj (List.append_cancel_left h)
  obtain ⟨halphabet, h⟩ := Alphabet.text_inj (List.append_cancel_left (List.cons.inj h).2)
  obtain ⟨htransitions, h⟩ := Transition.braced_text_inj (List.append_cancel_left h)
  obtain ⟨hinitial, h⟩ := State.readable_text _ _ _ _ (endsNumber_cons (by decide))
    (endsNumber_cons (by decide)) (List.append_cancel_left (List.cons.inj h).2)
  obtain ⟨haccepting, -⟩ := State.listText_inj (List.append_cancel_left (List.cons.inj h).2)
  exact ⟨SortedSet.toList_injective hstates, halphabet, htransitions, hinitial,
    SortedSet.toList_injective haccepting⟩

theorem LooksLike.setNotationWith_eq (h : a.LooksLike b) :
    a.setNotationWith name = b.setNotationWith name := by
  rw [setNotationWith, setNotationWith, h.states_eq, h.alphabet_eq,
    Transition.map_text_eq h.transitions_like, h.initial_eq, h.accepting_eq]

/-! ## The character `ε` -/

/-- Transitions none of which is on the character `ε` are equal if they look alike. -/
theorem eq_of_transitions_like {l m : List Transition} (h : List.Forall₂ Transition.LooksLike l m)
    (hl : ∀ t ∈ l, t.label ≠ .char 'ε') (hm : ∀ t ∈ m, t.label ≠ .char 'ε') : l = m := by
  induction h with
  | nil => rfl
  | @cons t t' l m hlike hrest ih =>
      obtain ⟨s, x, u⟩ := t
      obtain ⟨s', x', u'⟩ := t'
      obtain ⟨rfl, hlabel, rfl⟩ := hlike
      have hx := hl _ List.mem_cons_self
      have hx' := hm _ List.mem_cons_self
      have htail := ih (fun t ht => hl t (List.mem_cons_of_mem _ ht))
        fun t ht => hm t (List.mem_cons_of_mem _ ht)
      rcases hlabel with rfl | ⟨-, heq⟩ | ⟨heq, -⟩
      · rw [htail]
      · exact absurd heq hx'
      · exact absurd heq hx

/-- A character that is not in the alphabet labels no transition. -/
theorem Consistent.label_ne (ha : a.Consistent) {c : Char} (hc : c ∉ a.alphabet) :
    ∀ t ∈ a.transitions.sorted.toList, t.label ≠ .char c := by
  intro t ht heq
  have hadmits := ha.label_mem t (SortedSet.mem_ofList.1 ht)
  rw [heq, Alphabet.admits_char] at hadmits
  exact hc hadmits

theorem LooksLike.same (h : a.LooksLike b) (ha : a.Consistent) (hb : b.Consistent)
    (hε : 'ε' ∉ a.alphabet) : a.same b = true := by
  have hlist : a.transitions.sorted.toList = b.transitions.sorted.toList :=
    eq_of_transitions_like h.transitions_like (ha.label_ne hε)
      (hb.label_ne (h.alphabet_eq ▸ hε))
  refine same_iff.2 ⟨h.states_eq, h.alphabet_eq, ?_, h.initial_eq, h.accepting_eq⟩
  exact SortedSet.ofList_eq_ofList.1 (SortedSet.toList_injective hlist)

/-- **The set notation determines the automaton up to the look of the character `ε`,** and entirely
if `ε` is not in the alphabet.  A transition on the empty word looks like no transition on a
character but `ε`. -/
theorem setNotation_determines (ha : a.Consistent) (hb : b.Consistent) :
    (a.setNotation = b.setNotation ↔ a.LooksLike b) ∧
      ('ε' ∉ a.alphabet → a.setNotation = b.setNotation → a.same b = true) ∧
      ∀ t ∈ a.transitions, ∀ t' ∈ b.transitions, t.label = .epsilon → t.text = t'.text →
        t'.label = .epsilon ∨ t'.label = .char 'ε' := by
  refine ⟨⟨looksLike_of_setNotationWith, LooksLike.setNotationWith_eq⟩, ?_, ?_⟩
  · intro hε h
    exact (looksLike_of_setNotationWith h).same ha hb hε
  · intro t _ t' _ hlabel htext
    rw [Transition.text_eq_shownText, Transition.text_eq_shownText] at htext
    have hlike := Transition.shown_eq_shown_iff.1 ((Transition.readable_shownText _).eq htext)
    rcases hlike.label_like with heq | ⟨-, heq⟩ | ⟨heq, -⟩
    · exact .inl (heq ▸ hlabel)
    · exact .inr heq
    · rw [hlabel] at heq
      cases heq

/-- The transitions of the automaton with a silent cycle, from the last to the first. -/
def tangleBackwards : Automaton :=
  ofParts [.dead, .ofMembers [.dead, .simple 3], .simple 0] (SortedSet.ofList ['a', 'b'])
    [⟨.ofMembers [.simple 3, .dead], .char 'b', .simple 0⟩,
      ⟨.dead, .char 'a', .ofMembers [.simple 3, .dead]⟩, ⟨.dead, .epsilon, .simple 0⟩,
      ⟨.simple 0, .epsilon, .dead⟩]
    (.simple 0) [.ofMembers [.simple 3, .dead]]

/-- The second transition is on the empty word and on no character of the alphabet, and so looks
like none that is. -/
theorem setNotation_determines_tangle :
    tangle.Consistent ∧ tangleBackwards.Consistent ∧ 'ε' ∉ tangle.alphabet ∧
      tangle.setNotation = tangleBackwards.setNotation ∧ tangle.same tangleBackwards = true := by
  have hcons : tangle.Consistent := consistent_of_build build_tangle
  have hbackwards : tangleBackwards.Consistent :=
    consistent_of_build (rfl : build [.dead, .ofMembers [.dead, .simple 3], .simple 0]
      (SortedSet.ofList ['a', 'b'])
      [⟨.ofMembers [.simple 3, .dead], .char 'b', .simple 0⟩,
        ⟨.dead, .char 'a', .ofMembers [.simple 3, .dead]⟩, ⟨.dead, .epsilon, .simple 0⟩,
        ⟨.simple 0, .epsilon, .dead⟩]
      (.simple 0) [.ofMembers [.simple 3, .dead]] = .ok tangleBackwards)
  have hε : 'ε' ∉ tangle.alphabet := by decide
  have hnotation : tangle.setNotation = tangleBackwards.setNotation := by decide +kernel
  exact ⟨hcons, hbackwards, hε, hnotation,
    (setNotation_determines hcons hbackwards).2.1 hε hnotation⟩

/-- An automaton over signs that the notation uses itself, with a label yet to be chosen on one
transition. -/
def buildSigned (x : Symbol) : Except Error Automaton :=
  build [.simple 1, .dead, .ofMembers [.dead, .simple 12]] (SortedSet.ofList ['\x7d', 'ε', '('])
    [⟨.simple 1, .char '\x7d', .dead⟩, ⟨.dead, x, .ofMembers [.dead, .simple 12]⟩]
    (.simple 1) [.dead]

/-- **Two automata that are not the same can have the same set notation:** where one has the empty
word, the other has the character `ε`. -/
theorem exists_setNotation_eq_of_not_same :
    ∃ a b, buildSigned .epsilon = .ok a ∧ buildSigned (.char 'ε') = .ok b ∧
      a.setNotation = b.setNotation ∧ a.same b = false := by
  refine ⟨_, _, rfl, rfl, ?_, ?_⟩
  · decide +kernel
  · decide +kernel

end Automaton
end Determinization
