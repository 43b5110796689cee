import Determinization.Settings.Basic
import Determinization.Toml.Reader

/-!
# Settings from TOML

A text of settings is a table with known keys only.  A missing key leaves its setting at the
default; an unknown key, or a value of the wrong kind, makes the whole text invalid.

A group of settings is a table with a key for each of them, or an array with a value for each of
them in their order.  A choice is the name of one, as a text or as the only key of a table whose
value is empty.
-/

namespace Determinization
namespace Settings

open Toml (Node Entries)

/-- A truth value. -/
def flag? : Node → Option Bool
  | .flag b => some b
  | _ => none

/-- Is the value an array or a table without content? -/
def isEmpty : Node → Bool
  | .array [] => true
  | .tables [] => true
  | .table _ [] => true
  | _ => false

/-- The name of a choice. -/
def choice? : Node → Option (List Char)
  | .text s => some s
  | .table _ [(k, v)] => if isEmpty v then some k else none
  | _ => none

/-- The values for the keys of a group, with nothing for a key that a table does not have. -/
def group? (keys : List String) : Node → Option (List (Option Node))
  | .table _ entries =>
      if entries.all fun e => keys.any fun k => k.toList == e.1 then
        some (keys.map fun k => Entries.get? entries k.toList)
      else none
  | .array items =>
      if keys.length ≤ items.length then some ((items.take keys.length).map some) else none
  | .tables items =>
      if keys.length ≤ items.length then some ((items.take keys.length).map some) else none
  | _ => none

/-- What a reader makes of a value, or the fallback for a missing value. -/
def valueOr {α : Type} (read? : Node → Option α) (fallback : α) : Option Node → Option α
  | none => some (fallBack none fallback)
  | some v => (read? v).map fun a => fallBack (some a) fallback

/-- The settings of the logger. -/
def logger? (v : Node) : Option LoggerSettings :=
  match group? ["enabled", "log_level"] v with
  | some [enabled, level] => do
      let enabled ← valueOr flag? false enabled
      let level ← valueOr (fun v => (choice? v).bind LogLevel.ofName?) .warn level
      pure ⟨enabled, level⟩
  | _ => none

/-- The settings of the subset construction. -/
def subset? (v : Node) : Option SubsetSettings :=
  match group? ["worklist"] v with
  | some [order] => do
      let order ← valueOr (fun v => (choice? v).bind WorklistOrder.ofName?) .fifo order
      pure ⟨order⟩
  | _ => none

/-- All settings. -/
def settings? (v : Node) : Option Settings :=
  match group? ["remove_unreachable", "canonicalize", "format", "subset_construction", "logger"] v
    with
  | some [removeUnreachable, canonicalize, format, subset, logger] => do
      let removeUnreachable ← valueOr flag? false removeUnreachable
      let canonicalize ← valueOr flag? true canonicalize
      let format ← valueOr (fun v => (choice? v).bind OutputFormat.ofName?) .encoding format
      let subset ← valueOr subset? {} subset
      let logger ← valueOr logger? {} logger
      pure ⟨removeUnreachable, canonicalize, format, subset, logger⟩
  | _ => none

/-- The value that a text describes as a table. -/
def ofToml? {α : Type} (read? : Node → Option α) (text : List Char) : Option α :=
  (Toml.read text).bind fun entries => read? (.table .header entries)

/-- The settings that a text describes. -/
def ofText? (text : List Char) : Option Settings := ofToml? settings? text

end Settings
end Determinization
