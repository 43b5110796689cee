import Determinization.Search

/-!
# Settings

The settings say how an automaton is converted and what is printed.  Each of them has a default, so
a text of settings mentions only what it changes.

## Names

A choice has one name, which texts of settings use and which is printed.  On the command line, and
wherever a choice is made by a word, there are further names, and capitals do not matter.  Only the
capitals of ASCII have to be considered, because no other character has a letter of these words as
its small letter.
-/

namespace Determinization

/-- How much is logged: messages of this level and of more urgent ones. -/
inductive LogLevel where
  | debug
  | info
  | warn
  | error
  deriving DecidableEq

/-- How the result is printed. -/
inductive OutputFormat where
  | encoding
  | setNotation
  | graphviz
  | json
  deriving DecidableEq

/-- A word that names no choice. -/
inductive UnknownName where
  | logLevel (word : List Char)
  | outputFormat (word : List Char)
  deriving DecidableEq

/-- The message about a word that names no choice. -/
def UnknownName.message : UnknownName → List Char
  | logLevel word => "Invalid log level: ".toList ++ word
  | outputFormat word => "Invalid output format: ".toList ++ word

/-- A value of a table whose key is a text. -/
def lookUp? {α : Type} (table : List (String × α)) (key : List Char) : Option α :=
  (table.find? fun p => p.1.toList == key).map Prod.snd

namespace LogLevel

/-- The name of a level. -/
def name : LogLevel → String
  | debug => "debug"
  | info => "info"
  | warn => "warn"
  | error => "error"

/-- The name of a level at the beginning of a message. -/
def label : LogLevel → String
  | debug => "DEBUG"
  | info => "INFO"
  | warn => "WARN"
  | error => "ERROR"

/-- The place of a level in the order of urgency. -/
def urgency : LogLevel → Nat
  | debug => 0
  | info => 1
  | warn => 2
  | error => 3

/-- Is a message of the second level logged when the first one is chosen? -/
def admits (chosen level : LogLevel) : Bool := decide (chosen.urgency ≤ level.urgency)

/-- The level with a name. -/
def ofName? (s : List Char) : Option LogLevel :=
  lookUp? ([debug, info, warn, error].map fun l => (l.name, l)) s

/-- All words for levels. -/
def words : List (String × LogLevel) :=
  [("debug", debug), ("dbg", debug), ("info", info), ("inf", info), ("warn", warn),
    ("warning", warn), ("war", warn), ("error", error), ("err", error)]

/-- The level that a word chooses. -/
def ofWord (s : List Char) : Except UnknownName LogLevel :=
  match lookUp? words (s.map Char.toLower) with
  | some l => .ok l
  | none => .error (.logLevel s)

end LogLevel

namespace OutputFormat

/-- The name of a format. -/
def name : OutputFormat → String
  | encoding => "encoding"
  | setNotation => "set-notation"
  | graphviz => "graphviz"
  | json => "json"

/-- The format with a name. -/
def ofName? (s : List Char) : Option OutputFormat :=
  lookUp? ([encoding, setNotation, graphviz, json].map fun f => (f.name, f)) s

/-- All words for formats. -/
def words : List (String × OutputFormat) :=
  [("encoding", encoding), ("enc", encoding), ("set-notation", setNotation), ("set", setNotation),
    ("pretty", setNotation), ("graphviz", graphviz), ("dot", graphviz), ("json", json)]

/-- The format that a word chooses. -/
def ofWord (s : List Char) : Except UnknownName OutputFormat :=
  match lookUp? words (s.map Char.toLower) with
  | some f => .ok f
  | none => .error (.outputFormat s)

end OutputFormat

namespace WorklistOrder

/-- The name of an order. -/
def name : WorklistOrder → String
  | fifo => "fifo"
  | lifo => "lifo"

/-- The order with a name. -/
def ofName? (s : List Char) : Option WorklistOrder :=
  lookUp? ([fifo, lifo].map fun o => (o.name, o)) s

end WorklistOrder

/-- A value if there is one, and a fallback otherwise. -/
def fallBack {α : Type} (value : Option α) (fallback : α) : α := value.getD fallback

/-- A value if there is one, and otherwise a fallback that may be missing too. -/
def fallBack? {α : Type} (value fallback : Option α) : Option α :=
  fallBack (value.map some) fallback

/-- What is logged. -/
structure LoggerSettings where
  enabled : Bool := false
  level : LogLevel := .warn
  deriving DecidableEq

/-- How the subset construction proceeds. -/
structure SubsetSettings where
  order : WorklistOrder := .fifo
  deriving DecidableEq

/-- How an automaton is converted. -/
structure Settings where
  /-- Prune the states that are not reachable before determinizing. -/
  removeUnreachable : Bool := false
  /-- Number the states of the result canonically. -/
  canonicalize : Bool := true
  format : OutputFormat := .encoding
  subset : SubsetSettings := {}
  logger : LoggerSettings := {}
  deriving DecidableEq

end Determinization
