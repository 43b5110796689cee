import Determinization.Settings.FromToml

/-!
# Changing settings

Settings are changed one at a time, by a value, by a word that names a choice, or by a text for a
whole group.  Words may be unknown and texts invalid; then the changes end.
-/

namespace Determinization
namespace Settings

/-- A change of settings. -/
inductive Change where
  | removeUnreachable (b : Bool)
  | canonicalize (b : Bool)
  | enabled (b : Bool)
  | format (word : List Char)
  | level (word : List Char)
  | worklist (order : WorklistOrder)
  /-- New settings of the logger, missing ones being the defaults. -/
  | loggerText (toml : List Char)
  /-- New settings of the subset construction, missing ones being the defaults. -/
  | subsetText (toml : List Char)

/-- Why there are no settings. -/
inductive Failure where
  | invalidText
  | unknownName (e : UnknownName)

/-- The settings after a change. -/
def apply (s : Settings) : Change → Except Failure Settings
  | .removeUnreachable b => .ok { s with removeUnreachable := b }
  | .canonicalize b => .ok { s with canonicalize := b }
  | .enabled b => .ok { s with logger := { s.logger with enabled := b } }
  | .format word =>
      match OutputFormat.ofWord word with
      | .ok f => .ok { s with format := f }
      | .error e => .error (.unknownName e)
  | .level word =>
      match LogLevel.ofWord word with
      | .ok l => .ok { s with logger := { s.logger with level := l } }
      | .error e => .error (.unknownName e)
  | .worklist order => .ok { s with subset := ⟨order⟩ }
  | .loggerText toml =>
      match ofToml? logger? toml with
      | some logger => .ok { s with logger := logger }
      | none => .error .invalidText
  | .subsetText toml =>
      match ofToml? subset? toml with
      | some subset => .ok { s with subset := subset }
      | none => .error .invalidText

/-- The settings at first and after each change. -/
def applyAll (s : Settings) : List Change → Except Failure (List Settings)
  | [] => .ok [s]
  | c :: rest => do
      let next ← s.apply c
      let later ← next.applyAll rest
      pure (s :: later)

/-- The settings of a text, or the defaults without one, and what changes make of them. -/
def trace (text : Option (List Char)) (changes : List Change) : Except Failure (List Settings) :=
  match text with
  | none => applyAll {} changes
  | some text =>
      match ofText? text with
      | some s => s.applyAll changes
      | none => .error .invalidText

end Settings
end Determinization
