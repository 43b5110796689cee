import Determinization.Proofs.Automaton.Numbering
import Determinization.Proofs.Automaton.Powerset
import Determinization.Proofs.Guarded.Parts

/-!
# Transformations under guard

The subset construction, canonical numbering and pruning with all of their checks.

* A guarded search looks at each element before it expands it, and it raises an alarm if it would
  have to stop early.  What the guard may rely on is the invariant of the search: an element that is
  expanded was found, and was not expanded before (`Search.guardedRun_eq`).
* The subset construction enters the successors of a set in a table, one for each character, and an
  entry that is there already is an alarm.  None is, since no set is expanded twice.
* Canonical numbering looks up the number of each state that it expands.  A state that is pending
  was found, and got its number then.  The numbers last as long as there are fewer than `2 ^ 32`
  states.
* All three assemble their results from parts that are not checked otherwise, and the results are
  consistent.
-/

namespace Determinization

namespace Search

variable {α : Type} {order : WorklistOrder} {neighbours : α → List α} {seeds : List α}
  {guard : Search α → α → Except Alarm Unit} {s : Search α} {limit : Nat} [DecidableEq α]

/-- The search that looks at each element before it expands it. -/
def guardedRun (order : WorklistOrder) (neighbours : α → List α)
    (guard : Search α → α → Except Alarm Unit) : Nat → Search α → Except Alarm (Search α)
  | 0, s => if s.pending.isEmpty then .ok s else .error .unfinished
  | limit + 1, s =>
      match s.pending with
      | [] => .ok s
      | a :: rest =>
          match guard s a with
          | .error alarm => .error alarm
          | .ok _ => guardedRun order neighbours guard limit (s.expand order neighbours a rest)

/-- **A search raises no alarm if its guard raises none where the invariant holds.** -/
theorem guardedRun_eq (hs : Sound neighbours seeds s)
    (hguard : ∀ {s a rest}, Sound neighbours seeds s → s.pending = a :: rest → guard s a = .ok ())
    (hpending : (run order neighbours limit s).pending = []) :
    guardedRun order neighbours guard limit s = .ok (run order neighbours limit s) := by
  induction limit generalizing s with
  | zero =>
      rw [run_zero] at hpending
      rw [guardedRun, hpending]
      rfl
  | succ limit ih =>
      rw [guardedRun]
      cases hnext : s.pending with
      | nil => rw [run_of_pending_nil hnext]
      | cons a rest =>
          rw [run_succ_of_pending_cons hnext] at hpending ⊢
          simp only [hguard hs hnext]
          exact ih (hs.expand hnext) hpending

end Search

namespace Automaton

variable {a : Automaton} {s : State} {order : WorklistOrder}

/-! ## The subset construction -/

/-- The sets and characters for which the table of successors has an entry. -/
def entered (a : Automaton) (search : Search State) : List (State × Char) :=
  search.expanded.flatMap fun t => a.alphabet.toList.map fun c => (t, c)

/-- One more entry, for a set and a character that had none. -/
def enter (s : State) (table : List (State × Char)) (c : Char) :
    Except Alarm (List (State × Char)) :=
  if (s, c) ∈ table then .error (.conflict s c) else .ok ((s, c) :: table)

/-- The entries for a set, one for each character. -/
def enterSuccessors (a : Automaton) (search : Search State) (s : State) : Except Alarm Unit := do
  let _ ← a.alphabet.toList.foldlM (enter s) (a.entered search)
  return ()

/-- Different characters are entered one after the other. -/
theorem exists_foldlM_enter {l : List Char} {table : List (State × Char)} (hl : l.Nodup)
    (htable : ∀ c ∈ l, (s, c) ∉ table) : ∃ table', l.foldlM (enter s) table = .ok table' := by
  induction l generalizing table with
  | nil => exact ⟨table, rfl⟩
  | cons c l ih =>
      obtain ⟨hc, hl⟩ := List.nodup_cons.1 hl
      rw [List.foldlM_cons, enter, if_neg (htable c List.mem_cons_self)]
      refine ih hl fun d hd hmem => ?_
      rcases List.mem_cons.1 hmem with heq | hmem
      · obtain rfl := (Prod.mk.inj heq).2
        exact hc hd
      · exact htable d (List.mem_cons_of_mem _ hd) hmem

/-- The entries of a set that was not expanded before are new. -/
theorem enterSuccessors_eq {search : Search State} (h : s ∉ search.expanded) :
    a.enterSuccessors search s = .ok () := by
  have hnew : ∀ c ∈ a.alphabet.toList, (s, c) ∉ a.entered search := by
    intro c _ hmem
    obtain ⟨t, ht, hpair⟩ := List.mem_flatMap.1 hmem
    obtain ⟨d, -, heq⟩ := List.mem_map.1 hpair
    obtain rfl := (Prod.mk.inj heq).1
    exact h ht
  obtain ⟨table, htable⟩ := exists_foldlM_enter a.alphabet.nodup hnew
  rw [enterSuccessors, htable]
  rfl

/-- The search for sets of states that fills a table of successors. -/
def guardedSubsetSearch (a : Automaton) (order : WorklistOrder) : Except Alarm (Search State) :=
  Search.guardedRun order (fun s => a.alphabet.toList.map (a.successorSet s)) a.enterSuccessors
    (Nat.pow 2 a.states.size) (Search.start order [State.composite (a.closure [a.initial])])

theorem guardedSubsetSearch_eq (ha : a.Consistent) (order : WorklistOrder) :
    a.guardedSubsetSearch order = .ok (a.subsetSearch order) :=
  Search.guardedRun_eq (Search.sound_start _ _ _)
    (fun hs hnext => enterSuccessors_eq (hs.not_mem_expanded hnext)) (pending_subsetSearch ha order)

/-- The subset construction with all of its checks. -/
def guardedToDfa (a : Automaton) (order : WorklistOrder) : Except Alarm Dfa := do
  let search ← a.guardedSubsetSearch order
  let sets := SortedSet.ofList search.found
  let table := Relation.ofTable (SortedSet.ofList search.expanded) a.alphabet a.successorSet
  let result ← assemble sets a.alphabet table.toList (State.composite (a.closure [a.initial]))
    (sets.filter fun s => a.isAcceptingSet s.members)
  result.trust

/-- **The subset construction raises no alarm.** -/
theorem guardedToDfa_eq (ha : a.Consistent) (order : WorklistOrder) :
    a.guardedToDfa order = .ok (a.toDfa order) := by
  have hexpanded : SortedSet.ofList (a.subsetSearch order).expanded =
      SortedSet.ofList (a.subsetSearch order).found :=
    SortedSet.ofList_eq_ofList.2 fun _ =>
      (Search.sound_explore _ _ _ _).mem_expanded (pending_subsetSearch ha order)
  have hsearched : a.guardedToDfa order =
      (do
        let result ← assemble (a.toDfa order).automaton.states a.alphabet
          (Relation.ofTable (SortedSet.ofList (a.subsetSearch order).expanded) a.alphabet
            a.successorSet).toList
          (a.toDfa order).automaton.initial (a.toDfa order).automaton.accepting
        result.trust) := by
    rw [guardedToDfa, guardedSubsetSearch_eq ha]
    rfl
  have hassembled := assemble_eq (consistent_toDfa ha order) (Relation.ofList_toList _)
  rw [hsearched, hexpanded]
  exact (congrArg (· >>= trust) hassembled).trans (trust_eq (deterministic_toDfa ha order))

/-! ## Canonical numbering -/

/-- The number of a state is looked up; what was found has one. -/
def checkNumbered (search : Search State) (s : State) : Except Alarm Unit :=
  if s ∈ search.found then .ok () else .error (.unnumbered s)

/-- The search that looks up the number of each state before it follows its moves. -/
def guardedCanonicalSearch (a : Automaton) : Except Alarm (Search State) :=
  Search.guardedRun .lifo (fun s => (a.orderedMoves s).map Prod.snd) checkNumbered
    (1 + a.transitions.size) (Search.start .lifo [a.initial])

theorem guardedCanonicalSearch_eq (ha : a.Consistent) :
    a.guardedCanonicalSearch = .ok a.canonicalSearch :=
  Search.guardedRun_eq (Search.sound_start _ _ _)
    (fun hs hnext => if_pos (hs.mem_found_of_pending hnext)) (pending_canonicalSearch ha)

/-- Canonical numbering with all of its checks. -/
def guardedCanonicalize (a : Automaton) : Except Alarm Automaton := do
  let search ← a.guardedCanonicalSearch
  if search.found.length < 2 ^ 32 then
    let name := numbered search.found
    assemble (SortedSet.ofList (search.found.map name)) a.alphabet
      (search.expanded.flatMap fun s =>
        (a.orderedMoves s).map fun m => ⟨name s, m.1, name m.2⟩)
      (State.simple 0) ((a.accepting.filter fun s => decide (s ∈ search.found)).image name)
  else .error .outOfNumbers

/-- **Canonical numbering raises no alarm.** -/
theorem guardedCanonicalize_eq (ha : a.Consistent) (hsize : a.states.size < 2 ^ 32) :
    a.guardedCanonicalize = .ok a.canonicalize := by
  have hfound : a.canonicalSearch.found.length < 2 ^ 32 := by
    rw [length_found_canonicalSearch ha]
    exact Nat.lt_of_le_of_lt (size_reachable_le ha) hsize
  have hnumbered : a.guardedCanonicalize =
      if a.canonicalSearch.found.length < 2 ^ 32 then
        assemble a.canonicalize.states a.canonicalize.alphabet
          (a.canonicalSearch.expanded.flatMap a.canonicalMoves) a.canonicalize.initial
          a.canonicalize.accepting
      else .error .outOfNumbers := by
    rw [guardedCanonicalize, guardedCanonicalSearch_eq ha]
    rfl
  rw [hnumbered, if_pos hfound]
  exact assemble_eq ((isImage_canonicalize ha).consistent ha) a.transitions_canonicalize.symm

/-! ## Pruning -/

/-- Pruning with all of its checks; the number of states that are removed is counted too. -/
def guardedRemoveUnreachable (a : Automaton) : Except Alarm Automaton :=
  let kept := a.reachable
  if kept.size ≤ a.states.size then
    assemble kept a.alphabet
      (a.transitions.filter fun t =>
        decide (t.source ∈ kept) && decide (t.target ∈ kept)).toList
      a.initial (a.accepting.filter fun s => decide (s ∈ kept))
  else .error .tooManyKept

/-- **Pruning raises no alarm.** -/
theorem guardedRemoveUnreachable_eq (ha : a.Consistent) :
    a.guardedRemoveUnreachable = .ok a.removeUnreachable := by
  rw [guardedRemoveUnreachable, if_pos (size_reachable_le ha)]
  exact assemble_eq ((isImage_removeUnreachable a).consistent ha)
    (Relation.ofList_toList a.removeUnreachable.transitions)

end Automaton
end Determinization
