import Determinization.Comparison
import Determinization.Document
import Determinization.Drawing
import Determinization.Encoding.Writer
import Determinization.SetNotation

/-!
# Sessions

A session works on one current machine and keeps machines under names.  Each step asks something of
the current machine or replaces it.  A step that fails leaves the session as it was, with one
exception: when a machine cannot be made, there is no current machine afterwards.
-/

namespace Determinization

/-- What a new machine is made from. -/
inductive Blueprint where
  | text (text : List Char)
  | parts (deterministic : Bool) (states : List State) (alphabet : List Char)
      (transitions : List Transition) (initial : State) (accepting : List State)

/-- The machine of a blueprint, or what is wrong with it. -/
def Blueprint.machine : Blueprint → Except Error Machine
  | text t => (Automaton.parse t).map .nfa
  | parts deterministic states alphabet transitions initial accepting =>
      let characters := SortedSet.ofList alphabet
      if deterministic then
        (Dfa.build states characters transitions initial accepting).map .dfa
      else (Automaton.build states characters transitions initial accepting).map .nfa

namespace Session

/-- What can be made of a machine. -/
inductive Change where
  /-- The machine as it is. -/
  | none
  | toDfa (order : WorklistOrder)
  | canonicalize
  | removeUnreachable
  /-- The machine as a deterministic one, if it is deterministic. -/
  | asDfa
  /-- The machine as one that may be nondeterministic. -/
  | asNfa
  /-- The machine read back from what it is written as. -/
  | reparse

/-- What can be asked of a machine. -/
inductive Question where
  | encode
  | setNotation
  | drawing
  | document
  | parts
  | accepts (words : List (List Char))
  | closure (seeds : List State)
  | reachable
  | targets (s : State) (x : Symbol)
  | outgoing (s : State)
  | isAccepting (s : State)
  | isAcceptingSet (states : List State)
  | hasState (s : State)
  | hasEpsilon
  /-- Is the machine equal to the one saved under a name? -/
  | same (name : List Char)
  | sameLanguage (name : List Char) (bound : Nat)
  /-- The machine is claimed to accept the same words as the one saved under a name. -/
  | assertSameLanguage (name : List Char) (bound : Nat)
  | successor (s : State) (c : Char)
  | deadState
  /-- The machine is claimed to be deterministic. -/
  | assertTotal

/-- A step of a session. -/
inductive Step where
  | new (blueprint : Blueprint)
  | save (name : List Char)
  | load (name : List Char)
  | change (c : Change)
  | ask (q : Question)

/-- What a machine looks like at a glance. -/
structure View where
  isDfa : Bool
  states : Nat
  transitions : Nat
  encoding : List Char
  setNotation : List Char

/-- The answer to a step. -/
inductive Answer where
  | view (v : View)
  | names (names : List (List Char))
  | text (t : List Char)
  | flag (b : Bool)
  | flags (bs : List Bool)
  | states (l : List State)
  | state? (s : Option State)
  | moves (l : List (Symbol × State))
  /-- The components of an automaton, whose lists are all sorted. -/
  | parts (a : Automaton)

/-- Why a step has no answer. -/
inductive Failure where
  | invalid (e : Error)
  | noMachine
  | noSavedMachine
  | notDfa
  /-- Two machines differ that were insisted to be the same. -/
  | differ (d : Difference)

/-- The message of a failure. -/
def Failure.message : Failure → List Char
  | invalid e => e.message
  | noMachine => "no current machine".toList
  | noSavedMachine => "no such saved machine".toList
  | notDfa => "the current machine is an NFA".toList
  | differ d => d.message

end Session

/-- A current machine, if there is one, and machines under names. -/
structure Session where
  current : Option Machine
  saved : List (List Char × Machine)

namespace Session

/-- The session that has no machine yet. -/
def empty : Session := ⟨none, []⟩

/-- The machine saved under a name. -/
def saved? (s : Session) (name : List Char) : Option Machine :=
  (s.saved.find? fun p => p.1 == name).map Prod.snd

/-- The session with a machine under a name, in place of the one that was there. -/
def store (s : Session) (name : List Char) (m : Machine) : Session :=
  { s with saved := (name, m) :: s.saved.filter fun p => p.1 != name }

/-- The names under which there are machines, sorted. -/
def savedNames (s : Session) : List (List Char) :=
  (SortedSet.ofList (s.saved.map Prod.fst)).toList

/-- The view of a machine. -/
def View.of (m : Machine) : View where
  isDfa := m.isDfa
  states := m.automaton.states.size
  transitions := m.automaton.transitions.size
  encoding := m.automaton.encode
  setNotation :=
    match m with
    | .nfa a => a.setNotation
    | .dfa d => d.setNotation

/-- The session with another current machine, and its view. -/
def become (s : Session) (m : Machine) : Session × Except Failure Answer :=
  ({ s with current := some m }, .ok (.view (View.of m)))

/-- The machine after a change, or why there is none. -/
def Change.apply (m : Machine) : Change → Except Error Machine
  | .none => .ok m
  | .toDfa order => .ok (.dfa (m.automaton.toDfa order))
  | .canonicalize => .ok m.canonicalize
  | .removeUnreachable => .ok m.removeUnreachable
  | .asDfa => (Dfa.ofAutomaton m.automaton).map .dfa
  | .asNfa => .ok (.nfa m.automaton)
  | .reparse => (Automaton.parse m.automaton.encode).map .nfa

/-- The deterministic automaton of a machine known to be one. -/
def dfaOf (m : Machine) : Except Failure Dfa :=
  match m with
  | .nfa _ => .error .notDfa
  | .dfa d => .ok d

/-- The answer to a question about a machine, given the machines saved under names. -/
def Question.answer (m : Machine) (saved? : List Char → Option Machine) :
    Question → Except Failure Answer
  | .encode => .ok (.text m.automaton.encode)
  | .setNotation => .ok (.text (View.of m).setNotation)
  | .drawing => .ok (.text m.automaton.drawing)
  | .document => .ok (.text m.automaton.document.pretty)
  | .parts => .ok (.parts m.automaton)
  | .accepts words => .ok (.flags (words.map m.accepts))
  | .closure seeds => .ok (.states (m.automaton.closure seeds).toList)
  | .reachable => .ok (.states m.automaton.reachable.toList)
  | .targets s x => .ok (.states (m.automaton.orderedTargets s x))
  | .outgoing s =>
      .ok (.moves (SortedSet.ofList (m.automaton.transitions.outgoing s)).toList)
  | .isAccepting s => .ok (.flag (m.automaton.isAccepting s))
  | .isAcceptingSet l => .ok (.flag (m.automaton.isAcceptingSet l))
  | .hasState s => .ok (.flag (m.automaton.hasState s))
  | .hasEpsilon => .ok (.flag m.automaton.transitions.hasEpsilon)
  | .same name =>
      match saved? name with
      | none => .error .noSavedMachine
      | some n => .ok (.flag (m.automaton.same n.automaton))
  | .sameLanguage name bound =>
      match saved? name with
      | none => .error .noSavedMachine
      | some n => .ok (.flag (m.sameLanguage n bound))
  | .assertSameLanguage name bound =>
      match saved? name with
      | none => .error .noSavedMachine
      | some n =>
          match m.difference? n bound with
          | some d => .error (.differ d)
          | none => .ok (.flag true)
  | .successor s c => (dfaOf m).map fun d => .state? (d.successor? s c)
  | .deadState => (dfaOf m).map fun d => .state? d.deadState?
  | .assertTotal => (dfaOf m).map fun _ => .flag true

/-- One step of a session. -/
def step (s : Session) : Step → Session × Except Failure Answer
  | .new blueprint =>
      match blueprint.machine with
      | .ok m => s.become m
      | .error e => ({ s with current := none }, .error (.invalid e))
  | .load name =>
      match s.saved? name with
      | some m => s.become m
      | none => (s, .error .noSavedMachine)
  | .save name =>
      match s.current with
      | none => (s, .error .noMachine)
      | some m =>
          let s := s.store name m
          (s, .ok (.names s.savedNames))
  | .change c =>
      match s.current with
      | none => (s, .error .noMachine)
      | some m =>
          match c.apply m with
          | .ok n => s.become n
          | .error e => (s, .error (.invalid e))
  | .ask q =>
      match s.current with
      | none => (s, .error .noMachine)
      | some m => (s, q.answer m s.saved?)

/-- The answers to the steps of a session. -/
def run (s : Session) : List Step → List (Except Failure Answer)
  | [] => []
  | next :: rest =>
      let (s, a) := s.step next
      a :: s.run rest

end Session
end Determinization
