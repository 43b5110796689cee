import Determinization.Proofs.Automaton.Determinism

/-!
# Assembling automata under guard

A transformation takes for granted that what it computes fits together: that the initial state is
declared, that the ends of its transitions are among the nodes of the relation it fills, that its
result is deterministic.  Here the same computations are written out with each of these as a check
where it is relied on.  A check that fails raises an `Alarm`, and then there is no result.

What is proved about a guarded computation is that no alarm is raised and that the result is the one
without the checks: `guarded … = .ok …`.

Filling a relation with transitions that somebody else supplies checks each one before it looks up
its ends, so no lookup fails whatever is supplied (`Relation.guardedBuild_eq`).  Filling it with
transitions that were computed does not check them; there it is the consistency of the result that
rules the alarms out (`Automaton.assemble_eq`).  The check that a machine is total, which callers
can ask for, raises an alarm exactly if it is not deterministic (`Dfa.checkTotal_eq_ok_iff`).
-/

namespace Determinization

/-- What was taken for granted and is not so. -/
inductive Alarm where
  /-- The initial state of a result is not declared. -/
  | strayInitial (s : State)
  /-- An accepting state of a result is not declared. -/
  | strayAccepting (s : State)
  /-- The ends of a transition are looked up, and one of them is not there. -/
  | strayTransition (t : Transition)
  /-- A result that is taken for deterministic is not. -/
  | notDeterministic (e : Error)
  /-- A deterministic machine moves on the empty word. -/
  | silent
  /-- A state of a deterministic machine has no target on a character, or several. -/
  | notTotal (s : State) (c : Char) (count : Nat)
  /-- The subset construction enters a second successor of a set on a character. -/
  | conflict (s : State) (c : Char)
  /-- A search stops although something is pending. -/
  | unfinished
  /-- The number of a state is looked up, and it has none. -/
  | unnumbered (s : State)
  /-- More states are numbered than there are numbers. -/
  | outOfNumbers
  /-- More states are kept than there were. -/
  | tooManyKept
  /-- The position of a state is looked up, and it has none. -/
  | unplaced (s : State)

/-! ## Computations that raise nothing -/

section Raise

variable {α β ε : Type}

@[simp] theorem ok_bind (a : α) (f : α → Except ε β) : (Except.ok a >>= f) = f a := rfl

/-- Where no step raises anything, a fold is a fold. -/
theorem foldlM_eq_ok {f : β → α → Except ε β} {g : β → α → β} {l : List α}
    (h : ∀ a ∈ l, ∀ b, f b a = .ok (g b a)) (b : β) : l.foldlM f b = .ok (l.foldl g b) := by
  induction l generalizing b with
  | nil => rfl
  | cons a l ih =>
      rw [List.foldlM_cons, h a List.mem_cons_self]
      exact ih (fun a' ha' => h a' (List.mem_cons_of_mem _ ha')) (g b a)

/-- Where no element raises anything, a map is a map. -/
theorem mapM_eq_ok {f : α → Except ε β} {g : α → β} {l : List α}
    (h : ∀ a ∈ l, f a = .ok (g a)) : l.mapM f = .ok (l.map g) := by
  induction l with
  | nil => rfl
  | cons a l ih =>
      rw [List.mapM_cons, h a List.mem_cons_self,
        ih fun a' ha' => h a' (List.mem_cons_of_mem _ ha')]
      rfl

/-- Nothing is raised exactly if no element raises anything. -/
theorem forM_eq_ok_iff {f : α → Except ε Unit} {l : List α} :
    l.forM f = .ok () ↔ ∀ a ∈ l, f a = .ok () := by
  induction l with
  | nil => simp [List.forM, pure, Except.pure]
  | cons a l ih =>
      rw [List.forM, List.forall_mem_cons, ← ih]
      cases f a with
      | error e =>
          refine iff_of_false (fun h => ?_) fun h => ?_
          · cases h
          · cases h.1
      | ok u => rw [ok_bind, and_iff_right rfl]

end Raise

namespace Relation

variable {states : SortedSet State} {alphabet : Alphabet} {l : List Transition} {r : Relation}
  {t : Transition}

/-- The relation with one more transition, whose ends are looked up among the declared states. -/
def guardedInsert (states : SortedSet State) (r : Relation) (t : Transition) :
    Except Alarm Relation :=
  if t.source ∈ states ∧ t.target ∈ states then .ok (r.insert t)
  else .error (.strayTransition t)

theorem guardedInsert_eq (h : t.source ∈ states ∧ t.target ∈ states) :
    guardedInsert states r t = .ok (r.insert t) := if_pos h

/-- The relation of a list of transitions that were computed; their ends are looked up and nothing
else is checked. -/
def guardedOfList (states : SortedSet State) (l : List Transition) : Except Alarm Relation :=
  l.foldlM (guardedInsert states) empty

theorem guardedOfList_eq (h : ∀ t ∈ l, t.source ∈ states ∧ t.target ∈ states) :
    guardedOfList states l = .ok (ofList l) :=
  foldlM_eq_ok (fun t ht _ => guardedInsert_eq (h t ht)) empty

/-- A relation with more transitions, each checked before its ends are looked up. -/
def guardedExtend (states : SortedSet State) (alphabet : Alphabet) :
    List Transition → Relation → Except Alarm (Except Error Relation)
  | [], r => .ok (.ok r)
  | t :: l, r =>
      match fault? states alphabet t with
      | some e => .ok (.error e)
      | none =>
          match guardedInsert states r t with
          | .error alarm => .error alarm
          | .ok r' => guardedExtend states alphabet l r'

/-- The relation of a list of transitions that somebody supplies, or the first thing wrong with the
first one that is not between declared states on a declared symbol. -/
def guardedBuild (states : SortedSet State) (alphabet : Alphabet) (l : List Transition) :
    Except Alarm (Except Error Relation) :=
  guardedExtend states alphabet l empty

/-- **No lookup fails, whatever transitions are supplied.** -/
theorem guardedBuild_eq (states : SortedSet State) (alphabet : Alphabet) (l : List Transition) :
    guardedBuild states alphabet l = .ok (build states alphabet l) := by
  suffices h : ∀ r : Relation, guardedExtend states alphabet l r =
      .ok (match l.findSome? (fault? states alphabet) with
        | some e => .error e
        | none => .ok (l.foldl insert r)) from h empty
  induction l with
  | nil => exact fun r => rfl
  | cons t l ih =>
      intro r
      rw [guardedExtend, List.findSome?_cons]
      cases hfault : fault? states alphabet t with
      | some e => rfl
      | none =>
          obtain ⟨hsource, htarget, -⟩ := fault?_eq_none_iff.1 hfault
          rw [guardedInsert_eq ⟨hsource, htarget⟩]
          exact ih (r.insert t)

/-- There is a transition on the empty word exactly if one carries it. -/
theorem hasEpsilon_iff : r.hasEpsilon = true ↔ ∃ t ∈ r, t.label = .epsilon := by
  rw [hasEpsilon, List.any_eq_true]
  refine exists_congr fun t => and_congr_right fun _ => ?_
  cases t.label with
  | epsilon => exact iff_of_true rfl rfl
  | char c => exact iff_of_false Bool.noConfusion Symbol.noConfusion

end Relation

namespace Automaton

variable {a : Automaton} {l : List Transition}

/-- The automaton with parts that were computed. -/
def assemble (states : SortedSet State) (alphabet : Alphabet) (l : List Transition)
    (initial : State) (accepting : SortedSet State) : Except Alarm Automaton :=
  if initial ∈ states then
    match accepting.toList.find? fun s => decide (s ∉ states) with
    | some s => .error (.strayAccepting s)
    | none => do
        let r ← Relation.guardedOfList states l
        return ⟨states, alphabet, r, initial, accepting⟩
  else .error (.strayInitial initial)

/-- **A consistent automaton is assembled from its parts without alarm.** -/
theorem assemble_eq (ha : a.Consistent) (hl : Relation.ofList l = a.transitions) :
    assemble a.states a.alphabet l a.initial a.accepting = .ok a := by
  have haccepting : (a.accepting.toList.find? fun s => decide (s ∉ a.states)) = none := by
    refine List.find?_eq_none.2 fun s hs => ?_
    rw [decide_eq_true_iff, Decidable.not_not]
    exact ha.accepting_mem s hs
  have hends : ∀ t ∈ l, t.source ∈ a.states ∧ t.target ∈ a.states := by
    intro t ht
    have hmem : t ∈ a.transitions := hl ▸ Relation.mem_ofList.2 ht
    exact ⟨ha.source_mem t hmem, ha.target_mem t hmem⟩
  rw [assemble, if_pos ha.initial_mem, haccepting, Relation.guardedOfList_eq hends, hl]
  rfl

/-- The automaton taken for deterministic. -/
def trust (a : Automaton) : Except Alarm Dfa :=
  match a.determinismFault? with
  | some e => .error (.notDeterministic e)
  | none => .ok ⟨a⟩

theorem trust_eq (ha : a.Deterministic) : a.trust = .ok ⟨a⟩ := by
  rw [trust, determinismFault?_eq_none_iff.2 ha]

end Automaton

namespace Dfa

variable {d : Dfa} {s : State} {c : Char}

/-- The check that a state has one target on a character. -/
def checkCount (d : Dfa) (s : State) (c : Char) : Except Alarm Unit :=
  let count := (d.automaton.transitions.targets s (.char c)).length
  if count = 1 then .ok () else .error (.notTotal s c count)

/-- The check that every state has one target on every character, and none on the empty word. -/
def checkTotal (d : Dfa) : Except Alarm Unit :=
  if d.automaton.transitions.hasEpsilon then .error .silent
  else d.automaton.states.toList.forM fun s => d.automaton.alphabet.toList.forM (d.checkCount s)

theorem checkCount_eq_ok_iff :
    d.checkCount s c = .ok () ↔ (d.automaton.transitions.targets s (.char c)).length = 1 := by
  rw [checkCount]
  split
  · rename_i h
    exact iff_of_true rfl h
  · rename_i h
    exact iff_of_false nofun h

/-- **Exactly the deterministic machines pass the check.** -/
theorem checkTotal_eq_ok_iff : d.checkTotal = .ok () ↔ d.automaton.Deterministic := by
  rw [checkTotal]
  split
  · rename_i hepsilon
    obtain ⟨t, ht, hlabel⟩ := Relation.hasEpsilon_iff.1 hepsilon
    exact iff_of_false nofun fun hd => hd.no_epsilon t ht hlabel
  · rename_i hepsilon
    simp only [forM_eq_ok_iff, checkCount_eq_ok_iff]
    constructor
    · intro h
      exact ⟨fun t ht hlabel => hepsilon (Relation.hasEpsilon_iff.2 ⟨t, ht, hlabel⟩), h⟩
    · exact fun hd => hd.one_target

end Dfa
end Determinization
