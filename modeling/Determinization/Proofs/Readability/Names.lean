import Determinization.Proofs.Drawing.Rendering
import Determinization.Proofs.Readability.Messages
import Determinization.Proofs.Readability.Notation

/-!
# States are known by their texts

Messages, drawings and notations speak of states by writing their texts.  No state looks like
another one, nor like the beginning of one, so what is written tells which states are meant: not
only when the text of a state stands alone, but wherever something follows it that is not a digit.

* In a message the opening words tell the kind of the error, and the states that it names can then
  be read off in their places (`Error.states_eq_of_message_eq`).
* In a drawing the nodes are listed before the edges, and the line of a node does not go on like
  that of an edge.  So the labels of the nodes can be read off one after the other, whatever signs
  the edges are labelled with (`Automaton.states_eq_of_drawing_eq`).
* In a notation every component can be read off but the symbols of transitions
  (`Automaton.looksLike_of_setNotationWith`).
-/

namespace Determinization

open Encoding (EndsNumber endsNumber_cons)

/-! ## Drawings -/

namespace Automaton

variable {a b : Automaton}

/-- The name of the node with a number. -/
def numberedName (n : Nat) : List Char := 'n' :: Text.decimal n

/-- The line of a node with a number. -/
def nodeLine (p : Nat × State) : List Char := numberedName p.1 ++ drawingLabel p.2.text

/-- The states of an automaton with the numbers of their nodes. -/
def numberedStates (a : Automaton) : List (Nat × State) :=
  a.states.toList.map fun s => (a.states.toList.idxOf s, s)

theorem readable_numberedName (n : Nat) : Text.Readable numberedName n := by
  intro k u v hu hv h
  exact Text.readable_decimal n k u v hu hv (List.cons.inj h).2

theorem numberedName_append_ne {c : Char} (hc : 'n' ≠ c) (n : Nat) (s r : List Char) :
    numberedName n ++ s ≠ c :: r := fun h => hc (List.cons.inj h).1

/-- The label of a node stands behind its name and a space. -/
theorem nodeLine_append (p : Nat × State) (u : List Char) :
    nodeLine p ++ u = numberedName p.1 ++ ' ' :: '[' :: (" label=".toList ++
      '"' :: (p.2.text ++ '"' :: (" ];\n".toList ++ u))) := by
  rw [nodeLine, drawingLabel, labelOpening_eq, labelClosing_eq]
  simp only [List.append_assoc, List.cons_append, List.nil_append]

/-- **The number and the state can be read off the line of a node.** -/
theorem readable_nodeLine (p : Nat × State) : Text.Readable nodeLine p := by
  intro q u v _ _ h
  rw [nodeLine_append, nodeLine_append] at h
  obtain ⟨hnumber, h⟩ := readable_numberedName p.1 q.1 _ _ (endsNumber_cons (by decide))
    (endsNumber_cons (by decide)) h
  rw [List.cons.injEq, List.cons.injEq] at h
  obtain ⟨hstate, h⟩ := p.2.readable_text q.2 _ _ (endsNumber_cons (by decide))
    (endsNumber_cons (by decide)) (List.cons.inj (List.append_cancel_left h.2.2)).2
  exact ⟨Prod.ext hnumber hstate, List.append_cancel_left (List.cons.inj h).2⟩

/-- What follows the lines of the nodes. -/
def edgeLines (a : Automaton) : List Char :=
  a.transitions.sorted.toList.flatMap (fun t =>
    drawingArrow (a.nodeName t.source) (a.nodeName t.target) t.label.text) ++ Drawing.graphEnd

/-- Behind the nodes stands the closing brace, or an edge: a name and an arrow. -/
theorem edgeLines_eq_or_exists (a : Automaton) :
    a.edgeLines = ['\x7d', '\n'] ∨ ∃ n s, a.edgeLines = numberedName n ++ ' ' :: '-' :: s := by
  rw [edgeLines, graphEnd_eq]
  cases a.transitions.sorted.toList with
  | nil => exact .inl rfl
  | cons t ts =>
      rw [List.flatMap_cons, drawingArrow, arrow_eq]
      simp only [List.append_assoc, List.cons_append]
      exact .inr ⟨a.states.toList.idxOf t.source, _, rfl⟩

theorem endsNumber_edgeLines (a : Automaton) : EndsNumber a.edgeLines := by
  rcases a.edgeLines_eq_or_exists with hlines | ⟨n, s, hlines⟩
  · rw [hlines]
    exact endsNumber_cons (by decide)
  · rw [hlines]
    exact endsNumber_cons (by decide)

/-- An edge goes on with an arrow where a node goes on with its label. -/
theorem edgeLines_ne (a : Automaton) (p : Nat × State) (r : List Char) :
    a.edgeLines ≠ nodeLine p ++ r := by
  intro h
  rw [nodeLine_append] at h
  rcases a.edgeLines_eq_or_exists with hlines | ⟨n, s, hlines⟩
  · rw [hlines] at h
    exact numberedName_append_ne (by decide) p.1 _ _ h.symm
  · rw [hlines] at h
    obtain ⟨-, hrest⟩ := readable_numberedName n p.1 _ _ (endsNumber_cons (by decide))
      (endsNumber_cons (by decide)) h
    exact absurd (List.cons.inj (List.cons.inj hrest).2).1 (by decide)

/-- A drawing up to its edges: the accepting nodes, the initial node, and the lines of all nodes. -/
theorem drawing_eq_edgeLines (a : Automaton) :
    a.drawing = (Drawing.head ++ Drawing.doubleCircles) ++
      (Text.join [' ']
          ((a.accepting.toList.map fun s => a.states.toList.idxOf s).map numberedName) ++
        (';' :: ('\n' :: (Drawing.circles ++ Drawing.start)) ++
          (numberedName (a.states.toList.idxOf a.initial) ++
            ';' :: '\n' :: (a.numberedStates.flatMap nodeLine ++ a.edgeLines)))) := by
  have haccepting : a.accepting.toList.map a.nodeName =
      (a.accepting.toList.map fun s => a.states.toList.idxOf s).map numberedName := by
    rw [List.map_map]
    rfl
  have hnodes : a.states.toList.flatMap (fun s => a.nodeName s ++ drawingLabel s.text) =
      a.numberedStates.flatMap nodeLine := by
    rw [numberedStates, List.flatMap_map]
    rfl
  rw [drawing_eq, haccepting, hnodes, lineEnd_eq]
  simp only [List.append_assoc, List.cons_append, List.nil_append]
  rfl

/-- **The states can be read off a drawing.** -/
theorem states_eq_of_drawing_eq (h : a.drawing = b.drawing) : a.states = b.states := by
  rw [drawing_eq_edgeLines, drawing_eq_edgeLines] at h
  obtain ⟨-, h⟩ := Text.closed_join_inj (by decide) (by decide) (by decide)
    (fun n _ => readable_numberedName n) (numberedName_append_ne (by decide))
    (List.append_cancel_left h)
  obtain ⟨-, h⟩ := readable_numberedName _ _ _ _ (endsNumber_cons (by decide))
    (endsNumber_cons (by decide)) h
  rw [List.cons.injEq, List.cons.injEq] at h
  obtain ⟨hnodes, -⟩ := Text.flatMap_inj (fun p _ => readable_nodeLine p)
    (fun p s => endsNumber_cons (by decide)) a.endsNumber_edgeLines b.endsNumber_edgeLines
    (fun p r => ⟨a.edgeLines_ne p r, b.edgeLines_ne p r⟩) h.2.2
  have hstates : ∀ c : Automaton, c.numberedStates.map Prod.snd = c.states.toList := by
    intro c
    rw [numberedStates, List.map_map]
    exact List.map_id _
  refine SortedSet.toList_injective ?_
  rw [← hstates a, ← hstates b, hnodes]

end Automaton

/-! ## Names -/

namespace State

variable {s t : State} {l m : List State}

theorem text_eq_text_iff : s.text = t.text ↔ s = t := ⟨s.readable_text.eq, congrArg text⟩

theorem listText_eq_listText_iff : listText l = listText m ↔ l = m := by
  refine ⟨fun h => ?_, congrArg listText⟩
  have happend : listText l ++ [] = listText m ++ [] := by rw [h]
  exact (listText_inj happend).1

/-- **The texts of states are names.**  Different states have different texts, and different sets of
states are written differently.  So what a message says of states it says of these states only; the
labels of the nodes of a drawing differ from each other, and they tell which states are drawn; and a
notation tells which states it is about, in all of its components. -/
theorem texts_tell_apart :
    (∀ s t : State, s.text = t.text ↔ s = t) ∧
      (∀ S T : SortedSet State, listText S.toList = listText T.toList ↔ S = T) ∧
      (∀ e e' : Error, e.message = e'.message → e.states = e'.states) ∧
      (∀ a : Automaton, (a.states.toList.map text).Nodup) ∧
      (∀ a b : Automaton, a.drawing = b.drawing → a.states = b.states) ∧
      ∀ (a b : Automaton) (name : Char),
        a.setNotationWith name = b.setNotationWith name → a.LooksLike b := by
  refine ⟨fun s t => text_eq_text_iff, fun S T => ?_, fun e e' => Error.states_eq_of_message_eq,
    fun a => ?_, fun a b => Automaton.states_eq_of_drawing_eq,
    fun a b name => Automaton.looksLike_of_setNotationWith⟩
  · rw [listText_eq_listText_iff]
    exact ⟨SortedSet.toList_injective, congrArg SortedSet.toList⟩
  · exact a.states.nodup.map fun s t => text_eq_text_iff.1

/-- The empty set has a sign as a member and none as a set. -/
example : listText [dead, ofMembers [dead], simple 10] =
      "\x7b∅, \x7b∅\x7d, 10\x7d".toList ∧
    listText [] = "\x7b\x7d".toList := by
  decide +kernel

end State

end Determinization
