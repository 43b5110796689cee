import Determinization.CommandLine.Run

/-!
# The command

The outer layer of the command: it reads files and the standard input, prints the result and the
log, and ends with the exit code.  All decisions are made by `CommandLine.execute`.
-/

open Determinization

/-- The content of a file, or why it cannot be read. -/
def readFileOrError (path : List Char) : IO (Except CommandLine.FileError (List Char)) := do
  try
    let content ← IO.FS.readFile (String.ofList path)
    return .ok content.toList
  catch
    | .noFileOrDirectory _ _ _ => return .error .missing
    | .inappropriateType _ code _ =>
        return .error (if code = 21 then .isDirectory else .notDirectory)
    | e => return .error (.other e.toString.toList)

/-- The rest of the standard input. -/
partial def readAllInput (input : IO.FS.Stream) (before : String) : IO String := do
  let line ← input.getLine
  if line.isEmpty then return before else readAllInput input (before ++ line)

/-- Run the command with the arguments of the process. -/
def main (args : List String) : IO UInt32 := do
  let readInput : IO (List Char) := do
    let text ← readAllInput (← IO.getStdin) ""
    return text.toList
  let outcome ← CommandLine.execute readFileOrError readInput (args.map String.toList)
  for line in outcome.errorLines do IO.eprintln (String.ofList line)
  IO.print (String.ofList outcome.output)
  return UInt32.ofNat outcome.exitCode
