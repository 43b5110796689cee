import Determinization.Proofs.Automaton.Consistency
import Determinization.Proofs.Readability.Messages

/-!
# What is wrong with the parts of an automaton

`Automaton.build` refuses parts that do not fit together, and its error names one thing that is
wrong.  Several things can be wrong at once, so which of them is named is a matter of precedence.

* The symbols come first, and of those that are reserved the one with the least code point.
* Then the initial state, and then the accepting states, of which the least undeclared one is named.
* Transitions come last.  They are not sorted: the first one given that does not fit is named, for
  its source before its target and for its target before its label.

`FitsTogether` is what is asked of the parts, and `FirstFault` says which error they deserve if they
do not meet it.  Both speak about the lists that were given and not about the sets made of them.  A
reserved symbol is named in the message only, so `build_reports` says what the message is, and that
no other error has it.

## Sets and lists

Symbols and accepting states are looked through in increasing order, so the first that is found is
the least there is (`Ordered.find?_eq_some_iff`).  Transitions are looked through as they were
given, and there "first" is a matter of what stands before.
-/

namespace Determinization
namespace Automaton

variable {states : List State} {symbols : List Char} {transitions : List Transition}
  {initial : State} {accepting : List State} {t : Transition} {e : Error}

/-! ## Transitions -/

/-- The ends of the transition are declared, and its label is declared or the empty word. -/
structure Fits (states : List State) (symbols : List Char) (t : Transition) : Prop where
  source_mem : t.source ∈ states
  target_mem : t.target ∈ states
  label_mem : ∀ c, t.label = .char c → c ∈ symbols

/-- What is wrong with a transition in the first place. -/
inductive FaultOf (states : List State) (symbols : List Char) (t : Transition) : Error → Prop where
  | source (undeclared : t.source ∉ states) :
      FaultOf states symbols t (.undeclaredState .source t.source)
  | target (source_mem : t.source ∈ states) (undeclared : t.target ∉ states) :
      FaultOf states symbols t (.undeclaredState .target t.target)
  | label {c : Char} (source_mem : t.source ∈ states) (target_mem : t.target ∈ states)
      (label_eq : t.label = .char c) (undeclared : c ∉ symbols) :
      FaultOf states symbols t (.undeclaredSymbol t)

theorem admits_ofList_iff {x : Symbol} :
    Alphabet.admits (.ofList symbols) x = true ↔ ∀ c, x = .char c → c ∈ symbols := by
  cases x <;> simp

theorem admits_ofList_eq_false_iff {x : Symbol} :
    Alphabet.admits (.ofList symbols) x = false ↔ ∃ c, x = .char c ∧ c ∉ symbols := by
  cases x <;> simp [Alphabet.admits]

theorem fault?_eq_none_iff_fits :
    Relation.fault? (.ofList states) (.ofList symbols) t = none ↔ Fits states symbols t := by
  rw [Relation.fault?_eq_none_iff, admits_ofList_iff, SortedSet.mem_ofList, SortedSet.mem_ofList]
  exact ⟨fun ⟨hsource, htarget, hlabel⟩ => ⟨hsource, htarget, hlabel⟩,
    fun h => ⟨h.source_mem, h.target_mem, h.label_mem⟩⟩

/-- **The source of a transition is checked before its target, and its target before its label.** -/
theorem fault?_eq_some_iff_faultOf :
    Relation.fault? (.ofList states) (.ofList symbols) t = some e ↔ FaultOf states symbols t e := by
  unfold Relation.fault?
  simp only [SortedSet.mem_ofList]
  constructor
  · intro h
    split at h
    · rename_i hsource
      cases h
      exact .source hsource
    · rename_i hsource
      rw [Decidable.not_not] at hsource
      split at h
      · rename_i htarget
        cases h
        exact .target hsource htarget
      · rename_i htarget
        rw [Decidable.not_not] at htarget
        split at h
        · rename_i hlabel
          obtain ⟨c, hc, hundeclared⟩ := admits_ofList_eq_false_iff.1 hlabel
          cases h
          exact .label hsource htarget hc hundeclared
        · cases h
  · intro h
    cases h with
    | source undeclared => simp [undeclared]
    | target source_mem undeclared => simp [source_mem, undeclared]
    | label source_mem target_mem label_eq undeclared =>
        have hlabel := admits_ofList_eq_false_iff.2 ⟨_, label_eq, undeclared⟩
        simp [source_mem, target_mem, hlabel]

/-- A list of transitions is refused for the first one that does not fit. -/
theorem relation_build_eq_error_iff :
    Relation.build (.ofList states) (.ofList symbols) transitions = .error e ↔
      ∃ before t after, transitions = before ++ t :: after ∧
        (∀ u ∈ before, Fits states symbols u) ∧ FaultOf states symbols t e := by
  have hfound : Relation.build (.ofList states) (.ofList symbols) transitions = .error e ↔
      transitions.findSome? (Relation.fault? (.ofList states) (.ofList symbols)) = some e := by
    unfold Relation.build
    cases transitions.findSome? (Relation.fault? (.ofList states) (.ofList symbols)) <;> simp
  rw [hfound, List.findSome?_eq_some_iff]
  simp only [fault?_eq_none_iff_fits, fault?_eq_some_iff_faultOf]
  constructor
  · rintro ⟨before, t, after, hsplit, hfault, hbefore⟩
    exact ⟨before, t, after, hsplit, hbefore, hfault⟩
  · rintro ⟨before, t, after, hsplit, hbefore, hfault⟩
    exact ⟨before, t, after, hsplit, hfault, hbefore⟩

/-! ## All parts together -/

/-- The parts fit together, and the symbols can be encoded. -/
structure FitsTogether (states : List State) (symbols : List Char) (transitions : List Transition)
    (initial : State) (accepting : List State) : Prop where
  encodable : ∀ c ∈ symbols, Symbol.isEncodable c = true
  initial_mem : initial ∈ states
  accepting_mem : ∀ s ∈ accepting, s ∈ states
  fits : ∀ t ∈ transitions, Fits states symbols t

/-- The automaton has the given parts, each as a set. -/
structure HasParts (states : List State) (symbols : List Char) (transitions : List Transition)
    (initial : State) (accepting : List State) (a : Automaton) : Prop where
  mem_states : ∀ s, s ∈ a.states ↔ s ∈ states
  mem_alphabet : ∀ c, c ∈ a.alphabet ↔ c ∈ symbols
  mem_transitions : ∀ t, t ∈ a.transitions ↔ t ∈ transitions
  initial_eq : a.initial = initial
  mem_accepting : ∀ s, s ∈ a.accepting ↔ s ∈ accepting

/-- What is wrong with the parts in the first place: nothing that comes before is wrong. -/
inductive FirstFault (states : List State) (symbols : List Char) (transitions : List Transition)
    (initial : State) (accepting : List State) : Error → Prop where
  | symbol {c : Char} (mem : c ∈ symbols) (reserved : Symbol.isEncodable c = false)
      (least : ∀ d ∈ symbols, d.toNat < c.toNat → Symbol.isEncodable d = true) :
      FirstFault states symbols transitions initial accepting (.reservedSymbol c)
  | initial (encodable : ∀ c ∈ symbols, Symbol.isEncodable c = true)
      (undeclared : initial ∉ states) :
      FirstFault states symbols transitions initial accepting (.undeclaredState .initial initial)
  | accepting {s : State} (encodable : ∀ c ∈ symbols, Symbol.isEncodable c = true)
      (initial_mem : initial ∈ states) (mem : s ∈ accepting) (undeclared : s ∉ states)
      (least : ∀ u ∈ accepting, Ordered.Lt u s → u ∈ states) :
      FirstFault states symbols transitions initial accepting (.undeclaredState .accepting s)
  | transition {before after : List Transition} {t : Transition} {e : Error}
      (encodable : ∀ c ∈ symbols, Symbol.isEncodable c = true)
      (initial_mem : initial ∈ states) (accepting_mem : ∀ s ∈ accepting, s ∈ states)
      (split : transitions = before ++ t :: after)
      (earlier : ∀ u ∈ before, Fits states symbols u) (fault : FaultOf states symbols t e) :
      FirstFault states symbols transitions initial accepting e

theorem consistent_ofParts_iff :
    (ofParts states (.ofList symbols) transitions initial accepting).Consistent ↔
      FitsTogether states symbols transitions initial accepting := by
  constructor
  · intro h
    refine ⟨fun c hc => ?_, SortedSet.mem_ofList.1 h.initial_mem, fun s hs => ?_, fun t ht => ?_⟩
    · exact h.encodable c (SortedSet.mem_ofList.2 hc)
    · exact SortedSet.mem_ofList.1 (h.accepting_mem s (SortedSet.mem_ofList.2 hs))
    · have ht' := Relation.mem_ofList.2 ht
      exact fault?_eq_none_iff_fits.1 (Relation.fault?_eq_none_iff.2
        ⟨h.source_mem t ht', h.target_mem t ht', h.label_mem t ht'⟩)
  · intro h
    have hfits : ∀ t ∈ Relation.ofList transitions, t.source ∈ SortedSet.ofList states ∧
        t.target ∈ SortedSet.ofList states ∧ Alphabet.admits (.ofList symbols) t.label = true := by
      intro t ht
      have hfit := h.fits t (Relation.mem_ofList.1 ht)
      exact Relation.fault?_eq_none_iff.1 (fault?_eq_none_iff_fits.2 hfit)
    refine ⟨fun c hc => ?_, SortedSet.mem_ofList.2 h.initial_mem, fun s hs => ?_,
      fun t ht => (hfits t ht).1, fun t ht => (hfits t ht).2.1, fun t ht => (hfits t ht).2.2⟩
    · exact h.encodable c (SortedSet.mem_ofList.1 hc)
    · exact SortedSet.mem_ofList.2 (h.accepting_mem s (SortedSet.mem_ofList.1 hs))

theorem hasParts_ofParts :
    HasParts states symbols transitions initial accepting
      (ofParts states (.ofList symbols) transitions initial accepting) :=
  ⟨fun _ => SortedSet.mem_ofList, fun _ => SortedSet.mem_ofList, fun _ => Relation.mem_ofList, rfl,
    fun _ => SortedSet.mem_ofList⟩

/-! ## The checks one by one -/

/-- The symbol that is found is the reserved one with the least code point. -/
theorem find?_reserved_eq_some_iff {c : Char} :
    ((SortedSet.ofList symbols).toList.find? fun c => !Symbol.isEncodable c) = some c ↔
      c ∈ symbols ∧ Symbol.isEncodable c = false ∧
        ∀ d ∈ symbols, d.toNat < c.toNat → Symbol.isEncodable d = true := by
  have hlt : ∀ d : Char, Ordered.Lt d c ↔ d.toNat < c.toNat := fun d => Ordered.lt_nat
  rw [Ordered.find?_eq_some_iff (SortedSet.ofList symbols).increasing]
  simp [hlt]

theorem find?_reserved_eq_none_iff :
    ((SortedSet.ofList symbols).toList.find? fun c => !Symbol.isEncodable c) = none ↔
      ∀ c ∈ symbols, Symbol.isEncodable c = true := by
  simp

/-- The state that is found is the least undeclared one. -/
theorem find?_undeclared_eq_some_iff {s : State} :
    ((SortedSet.ofList accepting).toList.find? fun s => decide (s ∉ SortedSet.ofList states)) =
        some s ↔
      s ∈ accepting ∧ s ∉ states ∧ ∀ u ∈ accepting, Ordered.Lt u s → u ∈ states := by
  rw [Ordered.find?_eq_some_iff (SortedSet.ofList accepting).increasing]
  simp

theorem find?_undeclared_eq_none_iff :
    ((SortedSet.ofList accepting).toList.find? fun s => decide (s ∉ SortedSet.ofList states)) =
        none ↔ ∀ s ∈ accepting, s ∈ states := by
  simp

/-- An error names the first fault. -/
theorem firstFault_of_build
    (h : build states (.ofList symbols) transitions initial accepting = .error e) :
    FirstFault states symbols transitions initial accepting e := by
  unfold build at h
  -- the checks in their order; each is made where those before it found nothing
  split at h
  · rename_i c hreserved
    obtain ⟨hmem, hc, hleast⟩ := find?_reserved_eq_some_iff.1 hreserved
    cases h
    exact .symbol hmem hc hleast
  · rename_i hencodable
    rw [find?_reserved_eq_none_iff] at hencodable
    dsimp only at h
    split at h
    · rename_i hinitial
      rw [SortedSet.mem_ofList] at hinitial
      cases h
      exact .initial hencodable hinitial
    · rename_i hinitial
      rw [SortedSet.mem_ofList, Decidable.not_not] at hinitial
      split at h
      · rename_i s hundeclared
        obtain ⟨hmem, hs, hleast⟩ := find?_undeclared_eq_some_iff.1 hundeclared
        cases h
        exact .accepting hencodable hinitial hmem hs hleast
      · rename_i haccepting
        rw [find?_undeclared_eq_none_iff] at haccepting
        split at h
        · rename_i e' hrelation
          obtain ⟨before, t, after, hsplit, hbefore, hfault⟩ :=
            relation_build_eq_error_iff.1 hrelation
          cases h
          exact .transition hencodable hinitial haccepting hsplit hbefore hfault
        · cases h

/-- The first fault is named in an error. -/
theorem FirstFault.build_eq (h : FirstFault states symbols transitions initial accepting e) :
    build states (.ofList symbols) transitions initial accepting = .error e := by
  unfold build
  cases h with
  | symbol mem reserved least => simp only [find?_reserved_eq_some_iff.2 ⟨mem, reserved, least⟩]
  | initial encodable undeclared =>
      simp only [find?_reserved_eq_none_iff.2 encodable, SortedSet.mem_ofList, undeclared,
        not_false_eq_true, if_true]
  | accepting encodable initial_mem mem undeclared least =>
      simp only [find?_reserved_eq_none_iff.2 encodable, SortedSet.mem_ofList.2 initial_mem,
        not_true_eq_false, if_false, find?_undeclared_eq_some_iff.2 ⟨mem, undeclared, least⟩]
  | transition encodable initial_mem accepting_mem split earlier fault =>
      have hrelation := relation_build_eq_error_iff.2 ⟨_, _, _, split, earlier, fault⟩
      simp only [find?_reserved_eq_none_iff.2 encodable, SortedSet.mem_ofList.2 initial_mem,
        not_true_eq_false, if_false, find?_undeclared_eq_none_iff.2 accepting_mem, hrelation]

/-- **Building succeeds exactly on parts that fit together and keeps them as they are; otherwise it
names the first fault.** -/
theorem build_reports (states : List State) (symbols : List Char) (transitions : List Transition)
    (initial : State) (accepting : List State) :
    ((∃ a, build states (.ofList symbols) transitions initial accepting = .ok a) ↔
        FitsTogether states symbols transitions initial accepting) ∧
      (∀ a, build states (.ofList symbols) transitions initial accepting = .ok a →
        HasParts states symbols transitions initial accepting a) ∧
      (∀ e, build states (.ofList symbols) transitions initial accepting = .error e ↔
        FirstFault states symbols transitions initial accepting e) ∧
      ∀ e, build states (.ofList symbols) transitions initial accepting = .error e → ∀ c : Char,
        (e = .reservedSymbol c ↔ e.message = "malformed encoding: symbol ".toList ++
          (Text.quotedChar c ++
            " is reserved by the encoding and cannot be part of an alphabet".toList)) := by
  refine ⟨?_, ?_, fun e => ⟨firstFault_of_build, FirstFault.build_eq⟩,
    fun e _ c => Error.message_eq_reserved_iff.symm⟩
  · simp only [build_eq_ok_iff, exists_and_left, exists_eq, and_true, consistent_ofParts_iff]
  · intro a ha
    obtain ⟨-, rfl⟩ := build_eq_ok_iff.1 ha
    exact hasParts_ofParts

/-- Where nothing is right the least reserved symbol is named; where two transitions do not fit, the
target of the first, although its label is not declared either. -/
theorem build_reports_crowded :
    build [.simple 1] (.ofList [';', 'a', ',']) [⟨.simple 0, .char 'b', .simple 2⟩] (.simple 0)
        [.simple 3, .simple 2] = .error (.reservedSymbol ',') ∧
      build [.dead, .simple 0] (.ofList ['a'])
        [⟨.dead, .epsilon, .simple 0⟩, ⟨.simple 0, .char 'b', .simple 1⟩,
          ⟨.simple 2, .char 'a', .dead⟩] (.simple 0) [.dead] =
        .error (.undeclaredState .target (.simple 1)) := by
  constructor
  · have hleast : ∀ d ∈ [';', 'a', ','], d.toNat < ','.toNat → Symbol.isEncodable d = true := by
      simp only [List.forall_mem_cons, List.not_mem_nil, false_implies, implies_true, and_true]
      decide
    exact ((build_reports _ _ _ _ _).2.2.1 _).2 (.symbol (by decide) (by decide) hleast)
  · have hsplit : [⟨.dead, .epsilon, .simple 0⟩, ⟨.simple 0, .char 'b', .simple 1⟩,
        ⟨.simple 2, .char 'a', .dead⟩] =
        ([⟨.dead, .epsilon, .simple 0⟩] : List Transition) ++
          ⟨.simple 0, .char 'b', .simple 1⟩ :: [⟨.simple 2, .char 'a', .dead⟩] := rfl
    have hfits : ∀ u ∈ [(⟨.dead, .epsilon, .simple 0⟩ : Transition)],
        Fits [.dead, .simple 0] ['a'] u := by
      intro u hu
      obtain rfl := List.mem_singleton.1 hu
      exact ⟨by decide, by decide, nofun⟩
    exact ((build_reports _ _ _ _ _).2.2.1 _).2 (.transition (by simp; decide) (by decide)
      (by decide) hsplit hfits (.target (by decide) (by decide)))

end Automaton
end Determinization
