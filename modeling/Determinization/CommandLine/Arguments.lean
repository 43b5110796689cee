import Determinization.Settings.Basic
import Determinization.Text.ControlSequence
import Determinization.Text.Listing

/-!
# Command line arguments

The command takes the encoding of an automaton as its only positional argument, and three options
with values: a file with the encoding, a file with settings, and the output format.

## How arguments are read

Arguments are read from left to right.  A value of an option is attached to it, or is the next
argument unless that looks like an option itself.  What an option or a positional argument says is
settled only when the following argument is looked at, so of two mistakes in a row the one that is
reported depends on both: an unknown option is reported before anything that is not yet settled.
After two hyphens all arguments are positional.

What is said about a mistake quotes the arguments as they are, so `UsageError.text` may hold control
sequences of the user beside its own; without a terminal only what is visible of it is written.
-/

namespace Determinization
namespace CommandLine

/-- An option that takes a value. -/
inductive ValueOption where
  | file
  | config
  | format
  deriving DecidableEq

/-- An option that ends the reading of arguments. -/
inductive Flag where
  | help
  | version
  deriving DecidableEq

/-- What is wrong with the arguments. -/
inductive UsageError where
  /-- An option that does not exist, or one positional argument too many. -/
  | unexpectedArgument (arg : List Char)
  /-- A value was attached to an option that takes none. -/
  | unexpectedValue (value : List Char) (flag : Flag)
  | missingValue (o : ValueOption)
  | repeated (o : ValueOption)
  | invalidFormat (word : List Char) (e : UnknownName)
  /-- The encoding was given both as an argument and as a file; did the file come first? -/
  | conflict (fileFirst : Bool)
  deriving DecidableEq

namespace ValueOption

/-- The long name of an option. -/
def name : ValueOption → String
  | file => "file"
  | config => "config"
  | format => "format"

/-- An option and its value as messages show them. -/
def usage : ValueOption → String
  | file => "--file <FILE>"
  | config => "--config <CONFIG>"
  | format => "--format <FORMAT>"

/-- The option with a long name. -/
def ofName? (s : List Char) : Option ValueOption :=
  lookUp? ([file, config, format].map fun o => (o.name, o)) s

/-- The option with a short name. -/
def ofLetter? : Char → Option ValueOption
  | 'f' => some file
  | 'c' => some config
  | _ => none

end ValueOption

namespace Flag

/-- The long name of a flag. -/
def name : Flag → String
  | help => "help"
  | version => "version"

/-- The flag with a long name. -/
def ofName? (s : List Char) : Option Flag :=
  lookUp? ([help, version].map fun f => (f.name, f)) s

/-- The flag with a short name. -/
def ofLetter? : Char → Option Flag
  | 'h' => some help
  | 'V' => some version
  | _ => none

end Flag

/-- The positional argument as messages show it. -/
def encodingUsage : String := "[ENCODING]"

namespace UsageError

/-- A text that a terminal shows in another colour. -/
def emphasized (s : List Char) : List Char := "\x1b[33m".toList ++ s ++ "\x1b[0m".toList

/-- What is said about the kind of the mistake. -/
def cause : UsageError → List Char
  | unexpectedArgument arg => "unexpected argument '".toList ++ emphasized arg ++ "' found".toList
  | unexpectedValue value flag =>
      "unexpected value '".toList ++ emphasized value ++ "' for '--".toList ++ flag.name.toList ++
        "' found; no more were expected".toList
  | missingValue o =>
      "a value is required for '".toList ++ o.usage.toList ++
        "' but none was supplied".toList
  | repeated o =>
      "the argument '".toList ++ o.usage.toList ++
        "' cannot be used multiple times".toList
  | invalidFormat word e =>
      "invalid value '".toList ++ emphasized word ++ "' for '".toList ++
        ValueOption.format.usage.toList ++ "': ".toList ++ e.message
  | conflict fileFirst =>
      let file := ValueOption.file.usage
      let (first, second) := if fileFirst then (file, encodingUsage) else (encodingUsage, file)
      "the argument '".toList ++ first.toList ++ "' cannot be used with '".toList ++
        second.toList ++ "'".toList

/-- What is said about wrong arguments to a terminal. -/
def text (e : UsageError) : List Char :=
  "error: ".toList ++ e.cause ++ "\n\nFor more information, try '".toList ++
    emphasized "--help".toList ++ "'.\n".toList

/-- The lines of what is said about wrong arguments. -/
def lines (e : UsageError) : List (List Char) := Text.linesOf (Text.visible e.text)

/-- The first line of what is said about wrong arguments, which may quote several lines. -/
def firstLine (e : UsageError) : List Char := e.lines.head?.getD []

end UsageError

/-- What the arguments say. -/
structure Arguments where
  encoding : Option (List Char) := none
  file : Option (List Char) := none
  config : Option (List Char) := none
  format : Option OutputFormat := none
  deriving DecidableEq

/-- What has been read and is not yet settled. -/
inductive Pending where
  | nothing
  | option (o : ValueOption) (value : Option (List Char))
  | positional (value : List Char)

/-- The state of reading arguments. -/
structure Reading where
  settled : Arguments := {}
  pending : Pending := .nothing
  /-- Has the positional argument been read? -/
  hasPositional : Bool := false
  /-- Was a file settled when there was no encoding yet? -/
  fileFirst : Bool := false
  /-- Have two hyphens been read? -/
  positionalOnly : Bool := false

/-- What the arguments ask for. -/
inductive Request where
  | run (args : Arguments)
  | show (flag : Flag)

namespace Reading

/-- Settle the value of an option. -/
def assign (r : Reading) (o : ValueOption) (value : List Char) : Except UsageError Reading :=
  match o with
  | .file =>
      if r.settled.file.isSome then .error (.repeated o)
      else .ok { r with
        settled := { r.settled with file := some value }
        fileFirst := r.settled.encoding.isNone }
  | .config =>
      if r.settled.config.isSome then .error (.repeated o)
      else .ok { r with settled := { r.settled with config := some value } }
  | .format =>
      if r.settled.format.isSome then .error (.repeated o)
      else
        match OutputFormat.ofWord value with
        | .ok f => .ok { r with settled := { r.settled with format := some f } }
        | .error e => .error (.invalidFormat value e)

/-- Settle what is pending. -/
def settle (r : Reading) : Except UsageError Reading :=
  let s := { r with pending := .nothing }
  match r.pending with
  | .nothing => .ok s
  | .option o none => .error (.missingValue o)
  | .option o (some value) => s.assign o value
  | .positional value => .ok { s with settled := { s.settled with encoding := some value } }

/-- Read an option with a value if one is attached. -/
def option (r : Reading) (o : ValueOption) (value : Option (List Char)) :
    Except UsageError Reading := do
  let r ← r.settle
  match value with
  | some v => r.assign o v
  | none => pure { r with pending := .option o none }

/-- Read a positional argument. -/
def positional (r : Reading) (arg : List Char) : Except UsageError Reading := do
  if r.hasPositional then throw (.unexpectedArgument arg)
  let r ← r.settle
  pure { r with pending := .positional arg, hasPositional := true }

/-- Read an option by its long name, with a value if one is attached; a flag ends the reading. -/
def long (r : Reading) (name : List Char) (value : Option (List Char)) :
    Except UsageError (Reading ⊕ Flag) :=
  match ValueOption.ofName? name with
  | some o => (r.option o value).map .inl
  | none =>
      match Flag.ofName? name, value with
      | some flag, none => r.settle.map fun _ => .inr flag
      | some flag, some v => .error (.unexpectedValue v flag)
      | none, _ => .error (.unexpectedArgument (['-', '-'] ++ name))

/-- The value attached to a short name, if there is one; an equals sign before it does not count. -/
def attached? : List Char → Option (List Char)
  | [] => none
  | '=' :: value => some value
  | value => some value

/-- Read an option by its short name, with what is attached to it; a flag ends the reading. -/
def short (r : Reading) (letter : Char) (rest : List Char) : Except UsageError (Reading ⊕ Flag) :=
  match ValueOption.ofLetter? letter with
  | some o => (r.option o (attached? rest)).map .inl
  | none =>
      match Flag.ofLetter? letter with
      | some flag => r.settle.map fun _ => .inr flag
      | none => .error (.unexpectedArgument ['-', letter])

/-- Read an argument that is not an option: the value of one that waits for it, or positional. -/
def plain (r : Reading) (arg : List Char) : Except UsageError Reading :=
  match r.pending with
  | .option o none => .ok { r with pending := .option o (some arg) }
  | _ => r.positional arg

/-- Read one argument. -/
def step (r : Reading) (arg : List Char) : Except UsageError (Reading ⊕ Flag) :=
  if r.positionalOnly then (r.positional arg).map .inl
  else
    match arg with
    | ['-', '-'] => .ok (.inl { r with positionalOnly := true })
    | '-' :: '-' :: s =>
        let value := match s.dropWhile (· != '=') with
          | [] => none
          | _ :: value => some value
        r.long (s.takeWhile (· != '=')) value
    | '-' :: letter :: rest => r.short letter rest
    | _ => (r.plain arg).map .inl

/-- Settle everything after the last argument. -/
def finish (r : Reading) : Except UsageError Request := do
  let r ← r.settle
  if r.settled.encoding.isSome && r.settled.file.isSome then throw (.conflict r.fileFirst)
  pure (.run r.settled)

/-- Read the remaining arguments. -/
def readAll (r : Reading) : List (List Char) → Except UsageError Request
  | [] => r.finish
  | arg :: rest => do
      match ← r.step arg with
      | .inl r => r.readAll rest
      | .inr flag => pure (.show flag)

end Reading

/-- What a command line asks for, or what is wrong with it. -/
def readArguments (args : List (List Char)) : Except UsageError Request := Reading.readAll {} args

end CommandLine
end Determinization
