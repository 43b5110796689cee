import Determinization.Automaton.Basic

/-!
# Drawings

An automaton is drawn by a graph description in the DOT language: a node for every state, numbered
by its position in the order of states and labelled with its text, an edge for every transition, and
an arrow from an invisible node to the initial state.  Accepting states are circled twice.  Labels
are written as they are, without escapes.
-/

namespace Determinization

/-! ## The pieces of the text -/

namespace Drawing

/-- The lines that do not depend on the automaton. -/
def head : List Char :=
  ("digraph finite_state_machine \x7b\n" ++
    "fontname=\"Helvetica,Arial,sans-serif\"\n" ++
    "node [fontname=\"Helvetica,Arial,sans-serif\"]\n" ++
    "edge [fontname=\"Helvetica,Arial,sans-serif\"]\n" ++
    "rankdir=LR;\n" ++
    "node [shape=point,label=\"\"]START\n").toList

/-- What the accepting nodes follow. -/
def doubleCircles : List Char := "node [shape = doublecircle]; ".toList

/-- The line from which on nodes are circled once. -/
def circles : List Char := "node [shape = circle];\n".toList

/-- What the initial node follows. -/
def start : List Char := "START -> ".toList

/-- What stands between the nodes of an edge. -/
def arrow : List Char := " -> ".toList

/-- What stands before a label, its quotation mark included. -/
def labelOpening : List Char := " [ label=\"".toList

/-- What stands behind a label, its quotation mark included. -/
def labelClosing : List Char := "\" ];\n".toList

/-- The end of a statement and of its line. -/
def lineEnd : List Char := ";\n".toList

/-- The end of the graph. -/
def graphEnd : List Char := "\x7d\n".toList

end Drawing

namespace Automaton

/-- The name of the node that a state is drawn as. -/
def nodeName (a : Automaton) (s : State) : List Char :=
  'n' :: Text.decimal (a.states.toList.idxOf s)

/-- What follows the name of a node or an edge: its label, and the end of the line. -/
def drawingLabel (label : List Char) : List Char :=
  Drawing.labelOpening ++ label ++ Drawing.labelClosing

/-- The arrow between two nodes. -/
def drawingArrow (source target label : List Char) : List Char :=
  source ++ Drawing.arrow ++ target ++ drawingLabel label

/-- The description of the graph with the given names of nodes and the given arrows. -/
def drawingOf (a : Automaton) (accepting : List (List Char)) (initial : List Char)
    (arrows : List (List Char)) : List Char :=
  Drawing.head ++
    Drawing.doubleCircles ++ Text.join [' '] accepting ++ Drawing.lineEnd ++
    Drawing.circles ++
    Drawing.start ++ initial ++ Drawing.lineEnd ++
    a.states.toList.flatMap (fun s => a.nodeName s ++ drawingLabel s.text) ++
    arrows.flatten ++
    Drawing.graphEnd

/-- The description of the automaton as a graph. -/
def drawing (a : Automaton) : List Char :=
  a.drawingOf (a.accepting.toList.map a.nodeName) (a.nodeName a.initial)
    (a.transitions.sorted.toList.map fun t =>
      drawingArrow (a.nodeName t.source) (a.nodeName t.target) t.label.text)

end Automaton
end Determinization
