import Determinization.Relation

/-!
# Graphs of transitions

A relation can be kept as a graph.  Every declared state is a node, so that states without moves
are there, too.  An edge joins two nodes and has a symbol.  The nodes and the edges are numbered in
the order in which they were added, and a node knows which edges leave it, the latest first.

A transition becomes an edge between the nodes of its two states, unless one of the edges between
these nodes has its symbol already.  There is no edge for a transition whose states are not declared
(`TransitionGraph.insert?`).
-/

namespace Determinization

/-- A node, which stands for a state. -/
structure TransitionGraph.Node where
  state : State
  /-- The numbers of the edges that leave the node, the latest first. -/
  leaving : List Nat

/-- A graph whose edges are given by the numbers of their nodes. -/
structure TransitionGraph where
  nodes : List TransitionGraph.Node
  edges : List (Edge Nat)

namespace TransitionGraph

/-- The graph with a node for every state and without edges. -/
def withStates (states : SortedSet State) : TransitionGraph where
  nodes := states.toList.map fun s => ⟨s, []⟩
  edges := []

section Graph

variable (g : TransitionGraph)

/-- The node of a state. -/
def nodeOf? (s : State) : Option Nat := g.nodes.findIdx? fun n => n.state == s

/-- The state of a node. -/
def state? (i : Nat) : Option State := g.nodes[i]?.map (·.state)

/-- The edges that leave a node, the latest first. -/
def leaving (i : Nat) : List (Edge Nat) :=
  match g.nodes[i]? with
  | none => []
  | some n => n.leaving.filterMap fun k => g.edges[k]?

/-- The edges from one node to another. -/
def connecting (i j : Nat) : List (Edge Nat) := (g.leaving i).filter fun e => e.target == j

/-- The graph with one more edge. -/
def addEdge (e : Edge Nat) : TransitionGraph where
  nodes := g.nodes.modify e.source fun n => { n with leaving := g.edges.length :: n.leaving }
  edges := g.edges ++ [e]

/-- The graph with an edge for a transition, unless there was one before. -/
def insert? (t : Transition) : Option TransitionGraph := do
  let i ← g.nodeOf? t.source
  let j ← g.nodeOf? t.target
  if (g.connecting i j).any fun e => e.label == t.label then return g
  else return g.addEdge ⟨i, t.label, j⟩

end Graph

/-- The graph of a list of transitions. -/
def ofTransitions? (states : SortedSet State) (l : List Transition) : Option TransitionGraph :=
  l.foldlM insert? (withStates states)

section Views

variable (g : TransitionGraph)

/-- The states to which a state has an edge with a symbol. -/
def targets (s : State) (x : Symbol) : List State :=
  match g.nodeOf? s with
  | none => []
  | some i => ((g.leaving i).filter fun e => e.label == x).filterMap fun e => g.state? e.target

/-- The edges that leave a state, each with its symbol and its target. -/
def outgoing (s : State) : List (Symbol × State) :=
  match g.nodeOf? s with
  | none => []
  | some i => (g.leaving i).filterMap fun e => (g.state? e.target).map fun t => (e.label, t)

/-- The transition that an edge stands for. -/
def transition? (e : Edge Nat) : Option Transition := do
  return ⟨← g.state? e.source, e.label, ← g.state? e.target⟩

/-- The transitions of all edges. -/
def transitions : List Transition := g.edges.filterMap g.transition?

/-- Is there an edge on the empty word? -/
def hasEpsilon : Bool := g.edges.any fun e => e.label.isEpsilon

end Views

end TransitionGraph
end Determinization
