import Determinization.Proofs.Guarded.Transformations
import Determinization.Proofs.Search.Saturation

/-!
# The loop of the subset construction

The subset construction is run here one step after the other.  A step takes a set from those that
are pending and follows the characters of the alphabet one at a time; for each it enters the set
that the character leads to in a table, and it notes that set as found unless it was found before.
An entry that the table holds already is an alarm.

## Why no alarm is raised

The table is not part of the search, so something has to tie the two together.  After any number of
steps the table holds the moves of the sets that were expanded, in the order of their expansion, and
nothing else (`construct_eq`).  What is pending was not expanded, so a step meets no entry for the
set that it takes, and it enters each character once.  At which end of the worklist new sets are put
does not matter for this.

## Why the loop ends

New sets are added while others are taken away, and the worklist may grow for long.  But a set is
found once and so taken once, and what is found are sets of declared states, of which an automaton
with `n` states has `2 ^ n`.  So there is a last step (`Search.exists_last_step`), and what the loop
leaves behind then are the states and the moves of `Automaton.toDfa`
(`endsWithoutAlarm_construct`).
-/

namespace Determinization

namespace Automaton

variable {a : Automaton} {order : WorklistOrder} {s : State}

/-! ## The steps -/

/-- The subset construction at work: the search for sets, and the table of their moves. -/
structure Construction where
  search : Search State
  table : List Transition

namespace Construction

/-- The construction before its first step. -/
def start (a : Automaton) (order : WorklistOrder) : Construction :=
  ⟨Search.start order [State.composite (a.closure [a.initial])], []⟩

/-- A character is followed from a set that has no entry for it. -/
def follow (a : Automaton) (order : WorklistOrder) (s : State) (k : Construction) (c : Char) :
    Except Alarm Construction :=
  if ∃ t ∈ k.table, t.source = s ∧ t.label = .char c then .error (.conflict s c)
  else .ok ⟨k.search.discover order (a.successorSet s c),
    k.table ++ [⟨s, .char c, a.successorSet s c⟩]⟩

/-- The next set is taken from the worklist, and all characters are followed from it. -/
def step (a : Automaton) (order : WorklistOrder) (k : Construction) : Except Alarm Construction :=
  match k.search.pending with
  | [] => .ok k
  | s :: rest =>
      a.alphabet.toList.foldlM (follow a order s)
        ⟨⟨k.search.found, k.search.expanded ++ [s], rest⟩, k.table⟩

end Construction

/-- The construction after so many steps. -/
def construct (a : Automaton) (order : WorklistOrder) : Nat → Except Alarm Construction
  | 0 => .ok (Construction.start a order)
  | n + 1 => do
      let k ← a.construct order n
      k.step a order

/-! ## What a step does -/

/-- The moves of some sets on all characters, set by set. -/
def movesOf (a : Automaton) (sets : List State) : List Transition :=
  sets.flatMap fun s => a.alphabet.toList.map fun c => ⟨s, .char c, a.successorSet s c⟩

theorem movesOf_append_singleton (a : Automaton) (sets : List State) (s : State) :
    a.movesOf (sets ++ [s]) =
      a.movesOf sets ++ a.alphabet.toList.map fun c => ⟨s, .char c, a.successorSet s c⟩ := by
  rw [movesOf, List.flatMap_append, List.flatMap_singleton, movesOf]

theorem source_mem_of_mem_movesOf {sets : List State} {t : Transition} (h : t ∈ a.movesOf sets) :
    t.source ∈ sets := by
  obtain ⟨s, hs, ht⟩ := List.mem_flatMap.1 h
  obtain ⟨c, -, rfl⟩ := List.mem_map.1 ht
  exact hs

namespace Construction

/-- Different characters without entries are followed without an alarm. -/
theorem foldlM_follow {l : List Char} {search : Search State} {table : List Transition}
    (hl : l.Nodup) (hnew : ∀ c ∈ l, ¬ ∃ t ∈ table, t.source = s ∧ t.label = .char c) :
    l.foldlM (follow a order s) ⟨search, table⟩ =
      .ok ⟨(l.map (a.successorSet s)).foldl (Search.discover order) search,
        table ++ l.map fun c => ⟨s, .char c, a.successorSet s c⟩⟩ := by
  induction l generalizing search table with
  | nil =>
      rw [List.map_nil, List.map_nil, List.append_nil]
      rfl
  | cons c l ih =>
      obtain ⟨hc, hl⟩ := List.nodup_cons.1 hl
      rw [List.foldlM_cons, follow, if_neg (hnew c List.mem_cons_self), ok_bind, ih hl,
        List.map_cons, List.map_cons, List.foldl_cons, List.append_assoc, List.singleton_append]
      rintro d hd ⟨t, ht, hsource, hlabel⟩
      rcases List.mem_append.1 ht with ht | ht
      · exact hnew d (List.mem_cons_of_mem c hd) ⟨t, ht, hsource, hlabel⟩
      · -- the entry just made is for another character
        rw [List.mem_singleton.1 ht] at hlabel
        exact hc (Symbol.char.inj hlabel ▸ hd)

/-- **A step expands a set that has no entries, and gives it one for each character.** -/
theorem step_eq {seeds rest : List State} {k : Construction}
    (hs : Search.Sound (fun s => a.alphabet.toList.map (a.successorSet s)) seeds k.search)
    (htable : k.table = a.movesOf k.search.expanded) (hnext : k.search.pending = s :: rest) :
    k.step a order =
      .ok ⟨k.search.expand order (fun s => a.alphabet.toList.map (a.successorSet s)) s rest,
        a.movesOf (k.search.expanded ++ [s])⟩ := by
  have hnew : ∀ c ∈ a.alphabet.toList, ¬ ∃ t ∈ k.table, t.source = s ∧ t.label = .char c := by
    rintro c - ⟨t, ht, rfl, -⟩
    rw [htable] at ht
    exact hs.not_mem_expanded hnext (source_mem_of_mem_movesOf ht)
  rw [step, hnext]
  show a.alphabet.toList.foldlM (follow a order s) _ = _
  rw [foldlM_follow a.alphabet.nodup hnew, Search.foldl_discover, htable,
    movesOf_append_singleton]
  rfl

/-- To expand a set again is what raises the alarm, at the first character. -/
theorem step_eq_error {rest : List State} {c : Char} {l : List Char} {k : Construction}
    (htable : k.table = a.movesOf k.search.expanded) (hnext : k.search.pending = s :: rest)
    (hs : s ∈ k.search.expanded) (halphabet : a.alphabet.toList = c :: l) :
    k.step a order = .error (.conflict s c) := by
  have hentry : ∃ t ∈ k.table, t.source = s ∧ t.label = .char c := by
    refine ⟨⟨s, .char c, a.successorSet s c⟩, ?_, rfl, rfl⟩
    rw [htable, movesOf]
    refine List.mem_flatMap.2 ⟨s, hs, List.mem_map.2 ⟨c, ?_, rfl⟩⟩
    rw [halphabet]
    exact List.mem_cons_self
  rw [step, hnext]
  show a.alphabet.toList.foldlM (follow a order s) _ = _
  rw [halphabet, List.foldlM_cons, follow, if_pos hentry]
  rfl

end Construction

/-! ## Any number of steps -/

/-- The search for sets, stopped after so many steps. -/
def subsetRun (a : Automaton) (order : WorklistOrder) (n : Nat) : Search State :=
  Search.explore order (fun s => a.alphabet.toList.map (a.successorSet s)) n
    [State.composite (a.closure [a.initial])]

theorem sound_subsetRun (a : Automaton) (order : WorklistOrder) (n : Nat) :
    Search.Sound (fun s => a.alphabet.toList.map (a.successorSet s)) [a.afterState []]
      (a.subsetRun order n) := Search.sound_explore order _ n _

/-- No set is expanded twice. -/
theorem nodup_expanded_subsetRun (a : Automaton) (order : WorklistOrder) (n : Nat) :
    (a.subsetRun order n).expanded.Nodup :=
  (a.sound_subsetRun order n).nodup_append.of_append_left

/-- **No step raises an alarm.**  After any number of them the search is where it would be without
the table, and the table holds the moves of the sets that were expanded. -/
theorem construct_eq (a : Automaton) (order : WorklistOrder) (n : Nat) :
    a.construct order n =
      .ok ⟨a.subsetRun order n, a.movesOf (a.subsetRun order n).expanded⟩ := by
  induction n with
  | zero => rfl
  | succ n ih =>
      have hrun : a.subsetRun order (n + 1) = Search.run order _ 1 (a.subsetRun order n) :=
        Search.run_add n 1 _
      rw [construct, ih, ok_bind, hrun]
      cases hnext : (a.subsetRun order n).pending with
      | nil =>
          rw [Search.run_of_pending_nil hnext, Construction.step, hnext]
      | cons s rest =>
          rw [Construction.step_eq (a.sound_subsetRun order n) rfl hnext,
            Search.run_succ_of_pending_cons hnext]
          rfl

/-! ## Closed sets -/

/-- The search for a closure, with the limit that `closure` gives it. -/
def closureSearch (a : Automaton) (seeds : List State) : Search State :=
  Search.explore .lifo (fun s => a.transitions.targets s .epsilon)
    (seeds.length + a.transitions.size) seeds

theorem closure_eq (a : Automaton) (seeds : List State) :
    a.closure seeds = SortedSet.ofList (a.closureSearch seeds).found := rfl

theorem pending_closureSearch (a : Automaton) (seeds : List State) :
    (a.closureSearch seeds).pending = [] := by
  obtain ⟨whole, hlength, hwhole⟩ := a.exists_universe_closure seeds
  exact Search.pending_explore hwhole hlength

/-- The state is a set of declared states that no silent move leaves. -/
def IsClosedSet (a : Automaton) (s : State) : Prop :=
  ∃ S : SortedSet State, s = .composite S ∧ (∀ m ∈ S, m ∈ a.states) ∧
    ∀ m ∈ S, ∀ t, a.Silent m t → t ∈ S

theorem isClosedSet_afterState (ha : a.Consistent) (w : List Char) :
    a.IsClosedSet (a.afterState w) := by
  refine ⟨a.after w, rfl, fun m => ha.mem_states_of_mem_after, fun m hm t hstep => ?_⟩
  have hpath := (mem_after.1 hm).append (Leads.silent hstep (Leads.stay t))
  rw [List.append_nil] at hpath
  exact mem_after.2 hpath

theorem isClosedSet_of_mem_expanded {n : Nat} (ha : a.Consistent)
    (hs : s ∈ (a.subsetRun order n).expanded) : a.IsClosedSet s := by
  have hsound := a.sound_subsetRun order n
  have hfound : s ∈ (a.subsetRun order n).found :=
    hsound.perm.mem_iff.2 (List.mem_append_left _ hs)
  obtain ⟨w, -, rfl⟩ := joined_successorSet_iff.1 (hsound.joined s hfound)
  exact isClosedSet_afterState ha w

/-! ## The end of the loop -/

/-- The sets that were expanded in the end are the states of the result. -/
theorem perm_expanded_subsetSearch (ha : a.Consistent) (order : WorklistOrder) :
    (a.subsetSearch order).expanded.Perm (a.toDfa order).automaton.states.toList := by
  have hsound := a.sound_subsetRun order (Nat.pow 2 a.states.size)
  have hnodup := a.nodup_expanded_subsetRun order (Nat.pow 2 a.states.size)
  refine (List.perm_ext_iff_of_nodup hnodup (SortedSet.nodup _)).2 fun s => ?_
  calc s ∈ (a.subsetSearch order).expanded
    _ ↔ s ∈ (a.subsetSearch order).found := hsound.mem_expanded (pending_subsetSearch ha order)
    _ ↔ s ∈ (a.toDfa order).automaton.states := SortedSet.mem_ofList.symm

/-- The loop raises no alarm and comes to an end, and what it leaves behind is what the result is
made of. -/
structure EndsWithoutAlarm (a : Automaton) (order : WorklistOrder) : Prop where
  /-- The closures that the steps ask for are searches that end too. -/
  closure_ends : ∀ seeds, a.closure seeds = SortedSet.ofList (a.closureSearch seeds).found ∧
    (a.closureSearch seeds).pending = []
  /-- After any number of steps there is no alarm, and no set was expanded twice. -/
  no_alarm : ∀ n, ∃ k, a.construct order n = .ok k ∧ k.search.expanded.Nodup ∧
    ∀ s ∈ k.search.expanded, a.IsClosedSet s
  /-- There is a last step; sets are pending before it, and none are after it. -/
  exists_last : ∃ n ≤ 2 ^ a.states.size, ∃ k,
    (∀ m < n, ∃ k', a.construct order m = .ok k' ∧ k'.search.pending ≠ []) ∧
    (∀ m, n ≤ m → a.construct order m = .ok k) ∧
    k.search.pending = [] ∧ k.search.expanded.length = n ∧
    k.search.expanded.Perm (a.toDfa order).automaton.states.toList ∧
    k.table.Perm (a.toDfa order).automaton.transitions.toList

/-- **The subset construction ends and raises no alarm.**  In either worklist order it expands at
most `2 ^ n` sets of the `n` declared states, all of them closed under silent moves, and no set is
expanded twice. -/
theorem endsWithoutAlarm_construct (ha : a.Consistent) (order : WorklistOrder) :
    a.EndsWithoutAlarm order where
  closure_ends seeds := ⟨a.closure_eq seeds, a.pending_closureSearch seeds⟩
  no_alarm n := ⟨_, construct_eq a order n, a.nodup_expanded_subsetRun order n,
    fun s => isClosedSet_of_mem_expanded ha⟩
  exists_last := by
    have hpending := pending_subsetSearch ha order
    have hexpanded := perm_expanded_subsetSearch ha order
    obtain ⟨n, hn, hbefore, hafter, hlength⟩ := Search.exists_last_step hpending
    refine ⟨n, hn, ⟨a.subsetSearch order, a.movesOf (a.subsetSearch order).expanded⟩, ?_, ?_,
      hpending, hlength, hexpanded, hexpanded.flatMap_right _⟩
    · intro m hm
      exact ⟨_, construct_eq a order m, hbefore m hm⟩
    · intro m hm
      have hrun : a.subsetRun order m = a.subsetSearch order := hafter m hm
      rw [construct_eq, hrun]

theorem endsWithoutAlarm_construct_tangle :
    tangle.Consistent ∧ tangle.EndsWithoutAlarm .fifo ∧ tangle.EndsWithoutAlarm .lifo :=
  have hcons := consistent_of_build build_tangle
  ⟨hcons, endsWithoutAlarm_construct hcons .fifo, endsWithoutAlarm_construct hcons .lifo⟩

end Automaton
end Determinization
