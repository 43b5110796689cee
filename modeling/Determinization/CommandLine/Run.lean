import Determinization.CommandLine.Arguments
import Determinization.CommandLine.Files
import Determinization.Document
import Determinization.Drawing
import Determinization.Encoding.Writer
import Determinization.SetNotation
import Determinization.Settings.FromToml

/-!
# Running the command

The command reads its settings, reads an automaton, determinizes it and prints the result.  Along
the way it logs what it did, if the settings ask for it.

`CommandLine.execute` does everything but the reading of files and of the standard input, for which
it is given two actions, so the same definition serves for a real command and for one with files
given as values.  A run first finds out what to convert and how (`readJob`), and then converts it
(`finish`).
-/

namespace Determinization
namespace CommandLine

/-- A message of the log. -/
structure LogEntry where
  level : LogLevel
  /-- The part of the program that has written the message. -/
  origin : String
  message : List Char

/-- The line of a message. -/
def LogEntry.line (e : LogEntry) : List Char :=
  e.level.label.toList ++ [' '] ++ e.origin.toList ++ [':', ' '] ++ e.message

/-- Why the command fails. -/
inductive Failure where
  | unreadable (e : FileError)
  | invalidSettings
  | invalidAutomaton (e : Error)

/-- What is said about a failure. -/
def Failure.message : Failure → List Char
  | unreadable e => "Error: ".toList ++ e.message
  | invalidSettings => "Error: TOML parse error".toList
  | invalidAutomaton e => "Error: ".toList ++ e.message

/-- What the command leaves behind. -/
inductive Outcome where
  /-- The result and the lines of the log. -/
  | success (output : List Char) (log : List (List Char))
  | failure (f : Failure)
  | badUsage (e : UsageError)

/-- The number that the command ends with. -/
def Outcome.exitCode : Outcome → Nat
  | success _ _ => 0
  | failure _ => 1
  | badUsage _ => 2

/-- What the command writes to the standard output. -/
def Outcome.output : Outcome → List Char
  | success output _ => output
  | failure _ => []
  | badUsage _ => []

/-- The lines that the command writes to the standard error output. -/
def Outcome.errorLines : Outcome → List (List Char)
  | success _ log => log
  | failure f => Text.linesOf (f.message ++ ['\n'])
  | badUsage e => e.lines

/-- The deterministic automaton that the settings ask for, and the messages about making it. -/
def determinize (s : Settings) (a : Automaton) : Dfa × List LogEntry :=
  let count (x : Automaton) : List Char := Text.decimal x.states.size
  let kept := if s.removeUnreachable then a.removeUnreachable else a
  let built := kept.toDfa s.subset.order
  let result := if s.canonicalize then built.canonicalize else built
  let readEntry : LogEntry :=
    ⟨.info, "nfa2dfa", "Read NFA with ".toList ++ count a ++ " states".toList⟩
  let pruneEntry : LogEntry :=
    ⟨.debug, "nfa2dfa_lib::automaton::reachability",
      "Removed ".toList ++ Text.decimal (a.states.size - kept.states.size) ++
        " unreachable states".toList⟩
  let buildEntry : LogEntry :=
    ⟨.debug, "nfa2dfa_lib::automaton::subset",
      "Determinized NFA with ".toList ++ count kept ++ " states into DFA with ".toList ++
        count built.automaton ++ " states".toList⟩
  let numberEntry : LogEntry :=
    ⟨.debug, "nfa2dfa_lib::automaton::canonical",
      "Canonicalized automaton with ".toList ++ count built.automaton ++ " states into ".toList ++
        count result.automaton ++ " states".toList⟩
  let resultEntry : LogEntry :=
    ⟨.info, "nfa2dfa", "Built DFA with ".toList ++ count result.automaton ++ " states".toList⟩
  (result,
    [readEntry] ++ (if s.removeUnreachable then [pruneEntry] else []) ++ [buildEntry] ++
      (if s.canonicalize then [numberEntry] else []) ++ [resultEntry])

/-- A deterministic automaton in an output format. -/
def render (d : Dfa) : OutputFormat → List Char
  | .encoding => d.automaton.encode
  | .setNotation => d.setNotation
  | .graphviz => d.automaton.drawing
  | .json => d.automaton.document.pretty

/-- The lines of the log that the settings let through. -/
def logLines (s : LoggerSettings) (entries : List LogEntry) : List (List Char) :=
  if s.enabled then (entries.filter fun e => s.level.admits e.level).map LogEntry.line else []

/-- What the command prints for the text of an encoding. -/
def convertWith (s : Settings) (text : List Char) : Outcome :=
  match Automaton.parse (Text.trim text) with
  | .error e => .failure (.invalidAutomaton e)
  | .ok a =>
      let (d, entries) := determinize s a
      .success (Text.trimEnd (render d s.format) ++ ['\n']) (logLines s.logger entries)

/-- The settings of the command, given the text of the file with settings if one is named. -/
def settingsFor (args : Arguments) (text : Option (List Char)) : Option Settings :=
  let settings? : Option Settings := match text with
    | none => some {}
    | some text => Settings.ofText? text
  settings?.map fun s =>
    match args.format with
    | some f => { s with format := f }
    | none => s

/-- What is printed for the version. -/
def versionText : List Char := "nfa2dfa 0.1\n".toList

/-- What is printed for help. -/
def helpText : List Char :=
  ("Convert an encoded NFA into an equivalent DFA\n\n" ++
    "Usage: nfa2dfa [OPTIONS] [ENCODING]\n\n" ++
    "Arguments:\n" ++
    "  [ENCODING]  The encoded automaton, e.g. \x600 1/a/0,a,1;0,,1/0/1\x60. Read from stdin " ++
    "when neither this nor \x60--file\x60 is given\n\n" ++
    "Options:\n" ++
    "  -f, --file <FILE>      Read the encoded automaton from a file\n" ++
    "  -c, --config <CONFIG>  A TOML configuration file\n" ++
    "      --format <FORMAT>  Overrides the output format of the configuration\n" ++
    "  -h, --help             Print help\n" ++
    "  -V, --version          Print version\n").toList

/-- The text of a file that may not be named. -/
def readOptional {m : Type → Type} [Monad m]
    (readFile : List Char → m (Except FileError (List Char))) (path : Option (List Char)) :
    m (Except FileError (Option (List Char))) := do
  match path with
  | none => pure (.ok none)
  | some path =>
      let content ← readFile path
      pure (content.map some)

/-- The text that the arguments name: one of them, the content of a file, or the standard input. -/
def readText {m : Type → Type} [Monad m] (readFile : List Char → m (Except FileError (List Char)))
    (readInput : m (List Char)) (args : Arguments) : m (Except FileError (List Char)) :=
  match args.encoding, args.file with
  | some text, _ => pure (.ok text)
  | none, some path => readFile path
  | none, none => do
      let text ← readInput
      pure (.ok text)

/-- What a run is to convert, and how. -/
structure Job where
  settings : Settings
  text : List Char

/-- Read what is to be converted, or say how the run ends without converting anything. -/
def readJob {m : Type → Type} [Monad m] (readFile : List Char → m (Except FileError (List Char)))
    (readInput : m (List Char)) (args : List (List Char)) : m (Except Outcome Job) := do
  match readArguments args with
  | .error e => pure (.error (.badUsage e))
  | .ok (.show .version) => pure (.error (.success versionText []))
  | .ok (.show .help) => pure (.error (.success helpText []))
  | .ok (.run args) =>
      match ← readOptional readFile args.config with
      | .error e => pure (.error (.failure (.unreadable e)))
      | .ok configText =>
          match settingsFor args configText with
          | none => pure (.error (.failure .invalidSettings))
          | some settings =>
              match ← readText readFile readInput args with
              | .error e => pure (.error (.failure (.unreadable e)))
              | .ok text => pure (.ok ⟨settings, text⟩)

/-- How a run ends, given its job. -/
def finish : Except Outcome Job → Outcome
  | .error o => o
  | .ok job => convertWith job.settings job.text

/-- Run the command with actions that read a file, if that is possible, and the standard input. -/
def execute {m : Type → Type} [Monad m] (readFile : List Char → m (Except FileError (List Char)))
    (readInput : m (List Char)) (args : List (List Char)) : m Outcome :=
  finish <$> readJob readFile readInput args

/-- Run the command in a directory with files given by their names and contents.  What has been read
of the standard input is used up. -/
def executeWith (files : List (List Char × List Char)) (input : List Char)
    (args : List (List Char)) : Outcome :=
  let readInput : StateM (List Char) (List Char) := modifyGet fun input => (input, [])
  let readFile (path : List Char) : StateM (List Char) (Except FileError (List Char)) := do
    match FileTree.resolve (FileTree.ofFiles files) path with
    | .error e => pure (.error e)
    | .ok (.content text) => pure (.ok text)
    | .ok .standardInput => do
        let text ← readInput
        pure (.ok text)
  (execute readFile readInput args).run input |>.1

end CommandLine
end Determinization
