import Determinization.Drawing
import Determinization.Proofs.Encoding.Written
import Determinization.Proofs.Guarded.Parts

/-!
# Writing and drawing under guard

The written form looks up the number of each state that it mentions in a table that is made once
(`Automaton.idTable`).  The table lists the declared states: numbered ones with their own numbers as
long as there are no others, and else every state with its position.  A drawing looks up the
position of each state that an arrow touches.

What an automaton mentions is declared if the automaton is consistent, so no lookup fails
(`Automaton.guardedEncode_eq`, `Automaton.guardedDrawing_eq`).
-/

namespace Determinization
namespace Automaton

variable {a : Automaton} {s : State} {l : List State} {n : UInt32}

/-! ## The table of numbers -/

/-- The numbers that the states are written as. -/
def idTable (a : Automaton) : List (State × UInt32) :=
  if a.isNumbered then a.states.toList.filterMap fun s => s.id?.map fun n => (s, n)
  else a.states.toList.zipIdx.map fun p => (p.1, UInt32.ofNat p.2)

/-- States with numbers of their own are listed with them. -/
theorem lookup_filterMap_id? (hs : s ∈ l) (hn : s.id? = some n) :
    (l.filterMap fun s => s.id?.map fun n => (s, n)).lookup s = some n := by
  induction l with
  | nil => cases hs
  | cons t l ih =>
      by_cases hst : s = t
      · subst hst
        rw [List.filterMap_cons, hn]
        exact List.lookup_cons_self
      · have hmem : s ∈ l := (List.mem_cons.1 hs).resolve_left hst
        rw [List.filterMap_cons]
        cases ht : t.id? with
        | none => exact ih hmem
        | some m =>
            rw [Option.map_some, List.lookup_cons, beq_false_of_ne hst]
            exact ih hmem

/-- Other states are listed with their positions. -/
theorem lookup_zipIdx (hs : s ∈ l) (k : Nat) :
    ((l.zipIdx k).map fun p => (p.1, UInt32.ofNat p.2)).lookup s =
      some (UInt32.ofNat (k + l.idxOf s)) := by
  induction l generalizing k with
  | nil => cases hs
  | cons t l ih =>
      rw [List.zipIdx_cons, List.map_cons]
      by_cases hst : s = t
      · subst hst
        rw [List.lookup_cons_self, List.idxOf_cons_self, Nat.add_zero]
      · have hmem : s ∈ l := (List.mem_cons.1 hs).resolve_left hst
        rw [List.lookup_cons, beq_false_of_ne hst, List.idxOf_cons_ne _ (Ne.symm hst)]
        simp only [ih hmem (k + 1)]
        rw [Nat.add_assoc, Nat.add_comm 1]

/-- **The table has the numbers of all declared states.** -/
theorem lookup_idTable (hs : s ∈ a.states) : a.idTable.lookup s = some (a.writtenId s) := by
  rw [idTable, writtenId]
  split
  · rename_i hall
    obtain ⟨m, rfl⟩ := exists_simple_of_isNumbered hall hs
    exact lookup_filterMap_id? hs (State.id?_simple m)
  · rw [lookup_zipIdx hs 0, Nat.zero_add]

/-! ## The written form -/

/-- The number of a state is looked up. -/
def lookupId (table : List (State × UInt32)) (s : State) : Except Alarm UInt32 :=
  match table.lookup s with
  | some n => .ok n
  | none => .error (.unnumbered s)

/-- The ends of a transition are looked up. -/
def lookupEnds (table : List (State × UInt32)) (t : Transition) : Except Alarm (Edge UInt32) := do
  let source ← lookupId table t.source
  let target ← lookupId table t.target
  return ⟨source, t.label, target⟩

/-- The content of the written form, each number looked up. -/
def guardedToEncoding (a : Automaton) : Except Alarm Encoding := do
  let table := a.idTable
  let states ← a.states.toList.mapM (lookupId table)
  let transitions ← a.transitions.sorted.toList.mapM (lookupEnds table)
  let accepting ← a.accepting.toList.mapM (lookupId table)
  let initial ← lookupId table a.initial
  return ⟨states, a.alphabet.toList, transitions, initial, accepting⟩

/-- The written form, each number looked up. -/
def guardedEncode (a : Automaton) : Except Alarm (List Char) := do
  let e ← a.guardedToEncoding
  return e.write

theorem lookupId_eq (hs : s ∈ a.states) : lookupId a.idTable s = .ok (a.writtenId s) := by
  rw [lookupId, lookup_idTable hs]

theorem lookupEnds_eq {t : Transition} (hsource : t.source ∈ a.states)
    (htarget : t.target ∈ a.states) :
    lookupEnds a.idTable t = .ok (t.map a.writtenId) := by
  rw [lookupEnds, lookupId_eq hsource, lookupId_eq htarget]
  rfl

/-- **No lookup fails when a consistent automaton is written.** -/
theorem guardedEncode_eq (ha : a.Consistent) : a.guardedEncode = .ok a.encode := by
  have hstates : a.states.toList.mapM (lookupId a.idTable) =
      .ok (a.states.toList.map a.writtenId) := mapM_eq_ok fun s hs => lookupId_eq hs
  have htransitions : a.transitions.sorted.toList.mapM (lookupEnds a.idTable) =
      .ok (a.transitions.sorted.toList.map (Edge.map a.writtenId)) := by
    refine mapM_eq_ok fun t ht => ?_
    have hmem : t ∈ a.transitions := SortedSet.mem_ofList.1 ht
    exact lookupEnds_eq (ha.source_mem t hmem) (ha.target_mem t hmem)
  have haccepting : a.accepting.toList.mapM (lookupId a.idTable) =
      .ok (a.accepting.toList.map a.writtenId) :=
    mapM_eq_ok fun s hs => lookupId_eq (ha.accepting_mem s hs)
  rw [guardedEncode, guardedToEncoding]
  simp only [hstates, htransitions, haccepting, lookupId_eq ha.initial_mem]
  rfl

example : (⟨.empty, .empty, .empty, .simple 0, .empty⟩ : Automaton).guardedEncode =
    .error (.unnumbered (.simple 0)) := rfl

/-! ## The drawing -/

/-- The name of the node that a state is drawn as; its position is looked up. -/
def guardedNodeName (a : Automaton) (s : State) : Except Alarm (List Char) :=
  match a.states.toList.idxOf? s with
  | some i => .ok ('n' :: Text.decimal i)
  | none => .error (.unplaced s)

/-- The arrow that a transition is drawn as; the positions of its ends are looked up. -/
def guardedArrow (a : Automaton) (t : Transition) : Except Alarm (List Char) := do
  let source ← a.guardedNodeName t.source
  let target ← a.guardedNodeName t.target
  return drawingArrow source target t.label.text

/-- The description of the automaton as a graph, each position looked up. -/
def guardedDrawing (a : Automaton) : Except Alarm (List Char) := do
  let accepting ← a.accepting.toList.mapM a.guardedNodeName
  let initial ← a.guardedNodeName a.initial
  let arrows ← a.transitions.sorted.toList.mapM a.guardedArrow
  return a.drawingOf accepting initial arrows

theorem guardedNodeName_eq (hs : s ∈ a.states) : a.guardedNodeName s = .ok (a.nodeName s) := by
  have hposition : a.states.toList.idxOf? s = some (a.states.toList.idxOf s) := by
    refine List.idxOf?_eq_some_iff.2 ⟨List.idxOf_lt_length_of_mem hs, List.getElem_idxOf _, ?_⟩
    intro j hj heq
    have hlt := Nat.lt_trans hj (List.idxOf_lt_length_of_mem hs)
    have hself := a.states.nodup.idxOf_getElem j hlt
    rw [heq] at hself
    omega
  rw [guardedNodeName, hposition, nodeName]

/-- **Every position is found when a consistent automaton is drawn.** -/
theorem guardedDrawing_eq (ha : a.Consistent) : a.guardedDrawing = .ok a.drawing := by
  have haccepting : a.accepting.toList.mapM a.guardedNodeName =
      .ok (a.accepting.toList.map a.nodeName) :=
    mapM_eq_ok fun s hs => guardedNodeName_eq (ha.accepting_mem s hs)
  have harrows : a.transitions.sorted.toList.mapM a.guardedArrow =
      .ok (a.transitions.sorted.toList.map fun t =>
        drawingArrow (a.nodeName t.source) (a.nodeName t.target) t.label.text) := by
    refine mapM_eq_ok fun t ht => ?_
    have hmem : t ∈ a.transitions := SortedSet.mem_ofList.1 ht
    rw [guardedArrow, guardedNodeName_eq (ha.source_mem t hmem),
      guardedNodeName_eq (ha.target_mem t hmem)]
    rfl
  rw [guardedDrawing, haccepting, guardedNodeName_eq ha.initial_mem, harrows]
  rfl

end Automaton
end Determinization
