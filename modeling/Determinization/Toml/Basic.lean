/-!
# TOML tables

The value of a TOML text is a table: keys with values, where values may be tables again.  Texts,
truth values, arrays and tables are kept here; of a number or a date only its presence is, because
no setting has such a value.

## Which table may be extended

A key is given a value once.  A table, however, may be filled in several places, and what may still
be added to it depends on how it came to be, so every table carries its `Origin`.  A header opens
each table once, also after a longer header implied it.  A dotted key leads only through tables that
dotted keys made, that were implied, or that are the last of several.  A table that was implied
counts from then on as made by dotted keys, so no header opens it any more.  The value of a dotted
key is put only into a table that dotted keys made.  A table in braces is complete.
-/

namespace Determinization
namespace Toml

/-- A key of a table. -/
abbrev Key := List Char

/-- How a table came to be. -/
inductive Origin where
  /-- A header named a table inside it. -/
  | implied
  /-- A header named it. -/
  | header
  /-- A dotted key named something inside it, also where a header did before. -/
  | dotted
  /-- It was written in braces. -/
  | inline
  deriving DecidableEq

/-- A value. -/
inductive Node where
  | text (s : List Char)
  | flag (b : Bool)
  /-- A number or a date. -/
  | scalar
  | array (items : List Node)
  /-- The tables that repeated headers opened under one key. -/
  | tables (items : List Node)
  | table (origin : Origin) (entries : List (Key × Node))

/-- The keys and values of a table, in the order of their first mention. -/
abbrev Entries := List (Key × Node)

namespace Entries

/-- The value of a key. -/
def get? (entries : Entries) (k : Key) : Option Node :=
  (entries.find? fun e => e.1 == k).map Prod.snd

/-- The table with the value of a key put in place of its old one. -/
def set (entries : Entries) (k : Key) (v : Node) : Entries :=
  entries.map fun e => if e.1 == k then (k, v) else e

/-- The table with a value under a dotted key that has none yet, where `takesKey` says whether the
table takes a key of its own or is only led through. -/
def insertFrom : Bool → List Key → Node → Entries → Option Entries
  | _, [], _, _ => none
  | takesKey, [k], v, entries =>
      match takesKey, entries.get? k with
      | true, none => some (entries ++ [(k, v)])
      | _, _ => none
  | _, k :: path, v, entries =>
      match entries.get? k with
      | none => (insertFrom true path v []).map fun sub => entries ++ [(k, .table .dotted sub)]
      | some (.table .dotted sub) =>
          (insertFrom true path v sub).map fun sub => entries.set k (.table .dotted sub)
      | some (.table .implied sub) =>
          (insertFrom true path v sub).map fun sub => entries.set k (.table .dotted sub)
      | some (.tables items) =>
          match items.getLast? with
          | some (.table origin sub) =>
              (insertFrom false path v sub).map fun sub =>
                entries.set k (.tables (items.dropLast ++ [.table origin sub]))
          | _ => none
      | some _ => none

/-- The table with a value under a dotted key that has none yet. -/
def insert (path : List Key) (v : Node) (entries : Entries) : Option Entries :=
  insertFrom true path v entries

/-- The table with something done to the table at a path.  The path leads through the last of
several tables under one key; what is missing on it is implied. -/
def modifyAt (change : Entries → Option Entries) : List Key → Entries → Option Entries
  | [], entries => change entries
  | k :: path, entries =>
      match entries.get? k with
      | none => (modifyAt change path []).map fun sub => entries ++ [(k, .table .implied sub)]
      | some (.table .inline _) => none
      | some (.table origin sub) =>
          (modifyAt change path sub).map fun sub => entries.set k (.table origin sub)
      | some (.tables items) =>
          match items.getLast? with
          | some (.table origin sub) =>
              (modifyAt change path sub).map fun sub =>
                entries.set k (.tables (items.dropLast ++ [.table origin sub]))
          | _ => none
      | some _ => none

/-- The table with a header's table opened under a key. -/
def openTable (k : Key) (entries : Entries) : Option Entries :=
  match entries.get? k with
  | none => some (entries ++ [(k, .table .header [])])
  | some (.table .implied sub) => some (entries.set k (.table .header sub))
  | some _ => none

/-- The table with one more table opened under a key that holds several. -/
def openItem (k : Key) (entries : Entries) : Option Entries :=
  match entries.get? k with
  | none => some (entries ++ [(k, .tables [.table .header []])])
  | some (.tables items) => some (entries.set k (.tables (items ++ [.table .header []])))
  | some _ => none

end Entries

end Toml
end Determinization
