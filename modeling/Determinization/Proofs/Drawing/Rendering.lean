import Determinization.Drawing
import Determinization.Proofs.Automaton.Consistency
import Determinization.Proofs.Drawing.Dot
import Determinization.Proofs.Readability.States
import Mathlib.Data.List.Nodup

/-!
# What a drawing describes

A drawing of an automaton with accepting states describes a directed graph in the DOT language,
provided that no transition is on a double quote or a backslash: a labelled node for every state and
a labelled edge for every transition, and nothing else that has a label (`describes_drawing`).
States do no harm to labels, because their texts consist of digits, braces, commas, spaces and the
sign of the empty state.

Both provisos are needed.  The names of the accepting nodes are followed by a semicolon, and if
there are none of them, then the semicolon stands alone; DOT has no empty statement, so that such a
drawing describes nothing at all (`not_describes_drawing`).  And a label that is a double quote ends
before it has begun (`not_describes_quoteLoop`).
-/

namespace Determinization

open Dot (Plain Scans Reads EndsWord Statement Statements Describes Token isWordPart)

/-! ## Names and labels -/

namespace Dot

variable {s t : List Char}

theorem Plain.append (hs : Plain s) (ht : Plain t) : Plain (s ++ t) := by
  intro c hc
  rcases List.mem_append.1 hc with hc | hc
  · exact hs c hc
  · exact ht c hc

theorem plain_decimal (n : Nat) : Plain (Text.decimal n) := by
  intro c hc
  have hdigit := Text.isDigit_of_mem_decimal hc
  constructor <;>
  · rintro rfl
    exact absurd hdigit (by decide)

/-- Commas, spaces and braces are plain. -/
theorem plain_braced {items : List (List Char)} (h : ∀ item ∈ items, Plain item) :
    Plain (Text.braced items) := by
  have hseparator : Plain [',', ' '] := by decide
  have hjoin : Plain (Text.join [',', ' '] items) := by
    cases items with
    | nil => exact fun _ hc => absurd hc List.not_mem_nil
    | cons item items =>
        rw [Text.join_cons]
        refine (h item List.mem_cons_self).append ?_
        intro c hc
        obtain ⟨other, hother, hc⟩ := List.mem_flatMap.1 hc
        rcases List.mem_append.1 hc with hc | hc
        · exact hseparator c hc
        · exact h other (List.mem_cons_of_mem item hother) c hc
  exact Plain.append (Plain.append (by decide) hjoin) (by decide)

end Dot

namespace State

mutual

theorem Form.plain_text : ∀ x : Form, Plain x.text
  | .id n => Dot.plain_decimal n.toNat
  | .set [] => by
      rw [Form.text]
      decide
  | .set (m :: ms) => by
      rw [Form.text, Form.texts_eq_map]
      refine Dot.plain_braced fun item hitem => ?_
      obtain ⟨x, hx, rfl⟩ := List.mem_map.1 hitem
      exact Form.plain_texts (m :: ms) x hx

theorem Form.plain_texts : ∀ ms : List Form, ∀ m ∈ ms, Plain m.text
  | [] => fun _ h => absurd h List.not_mem_nil
  | x :: ms => by
      intro m hm
      rcases List.mem_cons.1 hm with heq | hm
      · exact heq ▸ Form.plain_text x
      · exact Form.plain_texts ms m hm

end

/-- The text of a state has no double quotes and no backslashes. -/
theorem plain_text (s : State) : Plain s.text := s.form.plain_text

end State

/-- Nor does a symbol, if it is neither of them itself. -/
theorem Symbol.plain_text {x : Symbol} (hquote : x ≠ .char '"') (hbackslash : x ≠ .char '\\') :
    Plain x.text := by
  intro c hc
  rw [Symbol.text_eq_sign, List.mem_singleton] at hc
  subst hc
  cases x with
  | epsilon => decide
  | char c => exact ⟨fun h => hquote (congrArg _ h), fun h => hbackslash (congrArg _ h)⟩

namespace Automaton

variable {a : Automaton} {s s' : State} {l : List Statement}

theorem isWordPart_of_mem_nodeName {c : Char} (hc : c ∈ a.nodeName s) : isWordPart c = true := by
  rcases List.mem_cons.1 hc with rfl | hc
  · decide
  · have hdigit := Text.isDigit_of_mem_decimal hc
    simp [isWordPart, Char.isAlphanum, hdigit]

/-- A node is not named by one of the words of the language. -/
theorem isKind_nodeName (a : Automaton) (s : State) :
    (Token.word (a.nodeName s)).isKind = false := by
  obtain ⟨c, rest, hn, hdigit⟩ := Text.exists_decimal_eq_cons (a.states.toList.idxOf s)
  have hne : c ≠ 'o' := by
    rintro rfl
    exact absurd hdigit (by decide)
  simp [Token.isKind, nodeName, hn, hne]

/-- **Nodes of different states have different names.** -/
theorem nodeName_inj (hs : s ∈ a.states) (h : a.nodeName s = a.nodeName s') : s = s' := by
  have hposition := Text.decimal_inj (List.cons.inj h).2
  exact (List.idxOf_inj hs).1 hposition

theorem nodup_map_nodeName (a : Automaton) : (a.states.toList.map a.nodeName).Nodup :=
  List.Nodup.map_on (fun _ hs _ _ h => nodeName_inj hs h) a.states.nodup

/-! ## The parts of a drawing -/

/-- Attributes that consist of a label. -/
def labelled (label : List Char) : Dot.Attributes := [("label".toList, label)]

/-- The statements that do not depend on the automaton, up to the accepting states. -/
def headStatements : List Statement :=
  let fonts := [("fontname".toList, "Helvetica,Arial,sans-serif".toList)]
  [.setting "fontname".toList "Helvetica,Arial,sans-serif".toList,
    .defaults "node".toList fonts,
    .defaults "edge".toList fonts,
    .setting "rankdir".toList "LR".toList,
    .defaults "node".toList [("shape".toList, "point".toList), ("label".toList, [])],
    .node "START".toList [],
    .defaults "node".toList [("shape".toList, "doublecircle".toList)]]

/-- The statements by which an automaton is drawn. -/
def drawnStatements (a : Automaton) : List Statement :=
  headStatements ++
    a.accepting.toList.map (fun s => Statement.node (a.nodeName s) []) ++
    [Statement.defaults "node".toList [("shape".toList, "circle".toList)],
      .edge "START".toList (a.nodeName a.initial) []] ++
    a.states.toList.map (fun s => Statement.node (a.nodeName s) (labelled s.text)) ++
    a.transitions.sorted.toList.map fun t =>
      Statement.edge (a.nodeName t.source) (a.nodeName t.target) (labelled t.label.text)

/-! ## How it is read -/

section Pieces

open Drawing

theorem lineEnd_eq : lineEnd = [';', '\n'] := rfl

theorem graphEnd_eq : graphEnd = ['\x7d', '\n'] := rfl

theorem arrow_eq : arrow = [' ', '-', '>', ' '] := rfl

theorem labelOpening_eq : labelOpening = ' ' :: '[' :: " label=".toList ++ ['"'] := rfl

theorem labelClosing_eq : labelClosing = '"' :: " ];\n".toList := rfl

theorem scans_lineEnd : Scans lineEnd [.semicolon] := by decide

theorem scans_graphEnd : Scans graphEnd [.closingBrace] := by decide

theorem scans_arrow : Scans arrow [.arrow] := by decide

theorem scans_start : Scans start [.word "START".toList, .arrow] := by decide

theorem scans_circles :
    Scans circles [.word "node".toList, .openingBracket, .word "shape".toList, .equals,
      .word "circle".toList, .closingBracket, .semicolon] := by
  decide

theorem endsWord_lineEnd : EndsWord lineEnd := ⟨';', ['\n'], lineEnd_eq, by decide⟩

theorem endsWord_arrow (s : List Char) : EndsWord (arrow ++ s) :=
  ⟨' ', ['-', '>', ' '] ++ s, by rw [arrow_eq]; rfl, by decide⟩

theorem endsWord_drawingLabel (label : List Char) : EndsWord (drawingLabel label) :=
  ⟨' ', '[' :: " label=".toList ++ ['"'] ++ label ++ labelClosing,
    by rw [drawingLabel, labelOpening_eq]; rfl, by decide⟩

theorem isKind_node : (Token.word "node".toList).isKind = true := by decide

theorem isKind_edge : (Token.word "edge".toList).isKind = true := by decide

theorem isKind_START : (Token.word "START".toList).isKind = false := by decide

end Pieces

/-- The tokens that do not depend on the automaton, statement by statement. -/
def headTokens : List Token :=
  let fonts : List Token := [.openingBracket, .word "fontname".toList, .equals,
    .quoted "Helvetica,Arial,sans-serif".toList, .closingBracket]
  [Token.word "fontname".toList, .equals, .quoted "Helvetica,Arial,sans-serif".toList] ++
    (Token.word "node".toList :: fonts ++
    (Token.word "edge".toList :: fonts ++
    ([Token.word "rankdir".toList, .equals, .word "LR".toList, .semicolon] ++
    ([Token.word "node".toList, .openingBracket, .word "shape".toList, .equals,
      .word "point".toList, .comma, .word "label".toList, .equals, .quoted [], .closingBracket] ++
    ([Token.word "START".toList] ++
    ([Token.word "node".toList, .openingBracket, .word "shape".toList, .equals,
      .word "doublecircle".toList, .closingBracket, .semicolon] ++ []))))))

/-- The tokens of a label and of the end of its line. -/
def labelTokens (label : List Char) : List Token :=
  [.openingBracket, .word "label".toList, .equals, .quoted label, .closingBracket, .semicolon]

theorem scans_head :
    Scans (Drawing.head ++ Drawing.doubleCircles)
      (.word "digraph".toList :: .word "finite_state_machine".toList :: .openingBrace ::
        headTokens) := by
  decide +kernel

theorem reads_head : Reads headTokens headStatements := by
  refine .cons (fun _ => ⟨_, Dot.statement?_setting rfl rfl, rfl⟩) ?_
  refine .cons (fun _ => ⟨_, Dot.statement?_defaults isKind_node rfl, rfl⟩) ?_
  refine .cons (fun _ => ⟨_, Dot.statement?_defaults isKind_edge rfl, rfl⟩) ?_
  refine .cons (fun _ => ⟨_, Dot.statement?_setting rfl rfl, rfl⟩) ?_
  refine .cons (fun _ => ⟨_, Dot.statement?_defaults isKind_node rfl, rfl⟩) ?_
  refine .cons (fun _ => ⟨_, Dot.statement?_node isKind_START (by simp) (by simp) rfl, rfl⟩) ?_
  exact .cons (fun _ => ⟨_, Dot.statement?_defaults isKind_node rfl, rfl⟩) .nil

theorem scans_nodeName {u : List Char} {ts : List Token} (a : Automaton) (s : State)
    (hu : EndsWord u) (h : Scans u ts) : Scans (a.nodeName s ++ u) (.word (a.nodeName s) :: ts) :=
  .word (List.cons_ne_nil _ _) (fun _ => isWordPart_of_mem_nodeName) hu h

theorem scans_drawingLabel {label : List Char} (h : Plain label) :
    Scans (drawingLabel label) (labelTokens label) := by
  have hopening : Scans (' ' :: '[' :: " label=".toList)
      [.openingBracket, .word "label".toList, .equals] := by decide
  have hclosing : Scans " ];\n".toList [.closingBracket, .semicolon] := by decide
  rw [drawingLabel, labelOpening_eq, labelClosing_eq]
  exact hopening.quoted h hclosing

/-- The names of the accepting nodes are followed by a semicolon. -/
theorem scans_accepting (a : Automaton) (s : State) (states : List State) :
    Scans (Text.join [' '] ((s :: states).map a.nodeName) ++ Drawing.lineEnd)
      ((s :: states).map (fun s => .word (a.nodeName s)) ++ [.semicolon]) := by
  rw [List.map_cons, Text.join_cons, List.append_assoc]
  induction states generalizing s with
  | nil =>
      exact scans_nodeName a s endsWord_lineEnd scans_lineEnd
  | cons s' states ih =>
      have hspace : Scans [' '] [] := by decide
      have hrest := hspace.append (ih s')
      rw [List.map_cons, List.flatMap_cons, List.append_assoc, List.append_assoc]
      exact scans_nodeName a s ⟨' ', _, rfl, by decide⟩ hrest

theorem reads_accepting (a : Automaton) (s : State) (states : List State) :
    Reads ((s :: states).map (fun s => .word (a.nodeName s)) ++ [.semicolon])
      ((s :: states).map fun s => .node (a.nodeName s) []) := by
  induction states generalizing s with
  | nil =>
      exact .single fun rest =>
        ⟨_, Dot.statement?_node (a.isKind_nodeName s) (by simp) (by simp) rfl, rfl⟩
  | cons s' states ih =>
      have hsplit : Reads ([.word (a.nodeName s)] ++
          ((s' :: states).map (fun s => .word (a.nodeName s)) ++ [.semicolon]))
          (.node (a.nodeName s) [] :: (s' :: states).map fun s => .node (a.nodeName s) []) :=
        .cons (fun rest =>
          ⟨_, Dot.statement?_node (a.isKind_nodeName s) (by simp) (by simp) rfl, rfl⟩) (ih s')
      exact hsplit

/-- The tokens between the accepting nodes and the labelled nodes. -/
def middleTokens (a : Automaton) : List Token :=
  [Token.word "node".toList, .openingBracket, .word "shape".toList, .equals,
    .word "circle".toList, .closingBracket, .semicolon] ++
  ([Token.word "START".toList, .arrow, .word (a.nodeName a.initial), .semicolon] ++ [])

/-- The tokens of the node of a state. -/
def nodeTokens (a : Automaton) (s : State) : List Token :=
  .word (a.nodeName s) :: labelTokens s.text

/-- The tokens of the edge of a transition. -/
def edgeTokens (a : Automaton) (t : Transition) : List Token :=
  .word (a.nodeName t.source) :: .arrow :: .word (a.nodeName t.target) :: labelTokens t.label.text

theorem scans_middle (a : Automaton) :
    Scans (Drawing.circles ++ (Drawing.start ++ (a.nodeName a.initial ++ Drawing.lineEnd)))
      a.middleTokens := by
  exact scans_circles.append
    (scans_start.append (scans_nodeName a a.initial endsWord_lineEnd scans_lineEnd))

theorem reads_middle (a : Automaton) :
    Reads a.middleTokens [.defaults "node".toList [("shape".toList, "circle".toList)],
      .edge "START".toList (a.nodeName a.initial) []] := by
  refine .cons (fun _ => ⟨_, Dot.statement?_defaults isKind_node rfl, rfl⟩) ?_
  exact .cons (fun _ => ⟨_, Dot.statement?_edge rfl, rfl⟩) .nil

theorem scans_node (a : Automaton) (s : State) :
    Scans (a.nodeName s ++ drawingLabel s.text) (a.nodeTokens s) :=
  scans_nodeName a s (endsWord_drawingLabel s.text) (scans_drawingLabel s.plain_text)

theorem reads_node (a : Automaton) (s : State) :
    Reads (a.nodeTokens s) [.node (a.nodeName s) (labelled s.text)] :=
  .single fun _ => ⟨_, Dot.statement?_node (a.isKind_nodeName s) (by simp [labelTokens])
    (by simp [labelTokens]) rfl, rfl⟩

theorem scans_edge (a : Automaton) {t : Transition} (h : Plain t.label.text) :
    Scans (drawingArrow (a.nodeName t.source) (a.nodeName t.target) t.label.text)
      (a.edgeTokens t) := by
  have htarget := scans_nodeName a t.target (endsWord_drawingLabel _) (scans_drawingLabel h)
  rw [drawingArrow, List.append_assoc, List.append_assoc]
  exact scans_nodeName a t.source (endsWord_arrow _) (scans_arrow.append htarget)

theorem reads_edge (a : Automaton) (t : Transition) :
    Reads (a.edgeTokens t)
      [.edge (a.nodeName t.source) (a.nodeName t.target) (labelled t.label.text)] :=
  .single fun _ => ⟨_, Dot.statement?_edge rfl, rfl⟩

/-! ## The whole drawing -/

/-- A drawing, part by part. -/
theorem drawing_eq (a : Automaton) :
    a.drawing = (Drawing.head ++ Drawing.doubleCircles) ++
      ((Text.join [' '] (a.accepting.toList.map a.nodeName) ++ Drawing.lineEnd) ++
      ((Drawing.circles ++ (Drawing.start ++ (a.nodeName a.initial ++ Drawing.lineEnd))) ++
      (a.states.toList.flatMap (fun s => a.nodeName s ++ drawingLabel s.text) ++
      (a.transitions.sorted.toList.flatMap (fun t =>
        drawingArrow (a.nodeName t.source) (a.nodeName t.target) t.label.text) ++
      Drawing.graphEnd)))) := by
  simp only [drawing, drawingOf, List.append_assoc, List.flatMap_def]

/-- **A drawing with accepting nodes and plain labels describes what it should,** and nothing
else. -/
theorem describes_drawing_iff {s : State} {states : List State}
    (haccepting : a.accepting.toList = s :: states)
    (hlabels : ∀ t ∈ a.transitions.sorted.toList, Plain t.label.text) :
    Describes a.drawing l ↔ l = a.drawnStatements := by
  have hscans := scans_head.append ((scans_accepting a s states).append (a.scans_middle.append
    ((Scans.flatMap (l := a.states.toList) fun s _ => a.scans_node s).append
      ((Scans.flatMap fun t ht => a.scans_edge (hlabels t ht)).append scans_graphEnd))))
  have hreads := reads_head.append ((reads_accepting a s states).append (a.reads_middle.append
    ((Reads.flatMap (l := a.states.toList) fun s _ => a.reads_node s).append
      (Reads.flatMap (l := a.transitions.sorted.toList) fun t _ => a.reads_edge t))))
  rw [← haccepting] at hscans hreads
  rw [← drawing_eq] at hscans
  rw [drawnStatements, List.append_assoc, List.append_assoc, List.append_assoc]
  refine Dot.describes_iff (w := "finite_state_machine".toList) ?_ hreads
  simpa only [List.append_assoc, List.cons_append] using hscans

theorem lookup_labelled (label : List Char) :
    (labelled label).lookup "label".toList = some label := List.lookup_cons_self

/-- The accepting nodes are listed without labels. -/
theorem filterMap_labelledNode? (a : Automaton) :
    a.drawnStatements.filterMap Statement.labelledNode? =
      a.states.toList.map fun s => (a.nodeName s, s.text) := by
  have hhead : headStatements.filterMap Statement.labelledNode? = [] := rfl
  have haccepting : (a.accepting.toList.map fun s => Statement.node (a.nodeName s) []).filterMap
      Statement.labelledNode? = [] := by
    rw [List.filterMap_map]
    exact List.filterMap_eq_nil_iff.2 fun _ _ => rfl
  have hnodes : (a.states.toList.map fun s => .node (a.nodeName s) (labelled s.text)).filterMap
      Statement.labelledNode? = a.states.toList.map fun s => (a.nodeName s, s.text) := by
    rw [List.filterMap_map, ← List.filterMap_eq_map]
    refine List.filterMap_congr fun s _ => ?_
    simp only [Function.comp_apply, Statement.labelledNode?, lookup_labelled, Option.map_some]
  have hedges : (a.transitions.sorted.toList.map fun t => Statement.edge (a.nodeName t.source)
      (a.nodeName t.target) (labelled t.label.text)).filterMap Statement.labelledNode? = [] := by
    rw [List.filterMap_map]
    exact List.filterMap_eq_nil_iff.2 fun _ _ => rfl
  rw [drawnStatements]
  simp only [List.filterMap_append, hhead, haccepting, hnodes, hedges]
  exact List.append_nil _

/-- The arrow to the initial node has no label. -/
theorem filterMap_labelledEdge? (a : Automaton) :
    a.drawnStatements.filterMap Statement.labelledEdge? =
      a.transitions.sorted.toList.map fun t =>
        (a.nodeName t.source, a.nodeName t.target, t.label.text) := by
  have hhead : headStatements.filterMap Statement.labelledEdge? = [] := rfl
  have hnodes : ∀ (l : List State) (attributes : State → Dot.Attributes),
      (l.map fun s => Statement.node (a.nodeName s) (attributes s)).filterMap
        Statement.labelledEdge? = [] := by
    intro l attributes
    rw [List.filterMap_map]
    exact List.filterMap_eq_nil_iff.2 fun _ _ => rfl
  have hedges : (a.transitions.sorted.toList.map fun t => .edge (a.nodeName t.source)
      (a.nodeName t.target) (labelled t.label.text)).filterMap Statement.labelledEdge? =
      a.transitions.sorted.toList.map fun t =>
        (a.nodeName t.source, a.nodeName t.target, t.label.text) := by
    rw [List.filterMap_map, ← List.filterMap_eq_map]
    refine List.filterMap_congr fun t _ => ?_
    simp only [Function.comp_apply, Statement.labelledEdge?, lookup_labelled, Option.map_some]
  rw [drawnStatements]
  simp only [List.filterMap_append, hhead, hnodes, hedges]
  rfl

/-- **A drawing says what there is,** if there are accepting states and if no transition is on a
double quote or a backslash: there is one node with a label for every state, and one edge with a
label for every transition, between the nodes of its ends. -/
theorem describes_drawing (ha : a.Consistent) (haccepting : a.accepting.toList ≠ [])
    (hlabels : ∀ t ∈ a.transitions, t.label ≠ .char '"' ∧ t.label ≠ .char '\\') :
    (∀ l, Describes a.drawing l ↔ l = a.drawnStatements) ∧
      a.drawnStatements.filterMap Statement.labelledNode? =
        a.states.toList.map (fun s => (a.nodeName s, s.text)) ∧
      (a.states.toList.map a.nodeName).Nodup ∧
      a.drawnStatements.filterMap Statement.labelledEdge? =
        a.transitions.sorted.toList.map (fun t =>
          (a.nodeName t.source, a.nodeName t.target, t.label.text)) ∧
      ∀ t ∈ a.transitions, t.source ∈ a.states ∧ t.target ∈ a.states := by
  obtain ⟨s, states, hstates⟩ := List.exists_cons_of_ne_nil haccepting
  refine ⟨fun l => describes_drawing_iff hstates ?_, a.filterMap_labelledNode?,
    a.nodup_map_nodeName, a.filterMap_labelledEdge?,
    fun t ht => ⟨ha.source_mem t ht, ha.target_mem t ht⟩⟩
  intro t ht
  obtain ⟨hquote, hbackslash⟩ := hlabels t (SortedSet.mem_ofList.1 ht)
  exact Symbol.plain_text hquote hbackslash

theorem describes_drawing_tangle :
    tangle.Consistent ∧ tangle.accepting.toList ≠ [] ∧
      (∀ t ∈ tangle.transitions, t.label ≠ .char '"' ∧ t.label ≠ .char '\\') ∧
      Describes tangle.drawing tangle.drawnStatements := by
  have hcons : tangle.Consistent := consistent_of_build build_tangle
  have haccepting : tangle.accepting.toList ≠ [] := by decide
  have hlabels : ∀ t ∈ tangle.transitions, t.label ≠ .char '"' ∧ t.label ≠ .char '\\' := by
    decide
  exact ⟨hcons, haccepting, hlabels,
    ((describes_drawing hcons haccepting hlabels).1 _).2 rfl⟩

/-! ## Drawings that are not well-formed -/

/-- **Without accepting states there is an empty statement,** whatever the labels are, so that the
drawing describes nothing. -/
theorem not_describes_drawing (haccepting : a.accepting.toList = []) : ¬ Describes a.drawing l := by
  rintro ⟨name, tokens, htokens, hl⟩
  have hscans := scans_head.append scans_lineEnd
  rw [drawing_eq, haccepting, List.map_nil, Text.join_nil, List.nil_append,
    ← List.append_assoc] at htokens
  obtain ⟨rest, hrest⟩ := hscans.exists_of_tokens? htokens
  simp only [List.cons_append, List.append_assoc, List.cons.injEq] at hrest
  rw [hrest.2.2.2, reads_head] at hl
  obtain ⟨m, -, hm⟩ := hl
  exact Dot.not_statements_semicolon hm

/-- A state with a transition to itself on a double quote. -/
def quoteLoop : Automaton :=
  ofParts [.simple 0] (SortedSet.ofList ['"']) [⟨.simple 0, .char '"', .simple 0⟩] (.simple 0)
    [.simple 0]

/-- **A label that is a double quote ends too early:** with the quotes around it there are three of
them, and nothing closes the last one. -/
theorem not_describes_quoteLoop :
    build [.simple 0] (SortedSet.ofList ['"']) [⟨.simple 0, .char '"', .simple 0⟩] (.simple 0)
        [.simple 0] = .ok quoteLoop ∧
      ∀ l, ¬ Describes quoteLoop.drawing l := by
  refine ⟨rfl, ?_⟩
  rintro l ⟨name, tokens, htokens, -⟩
  have hnone : Dot.tokens? quoteLoop.drawing = none := by decide +kernel
  rw [hnone] at htokens
  cases htokens

end Automaton
end Determinization
