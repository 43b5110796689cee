import Determinization.Text.Listing

/-!
# Files by their paths

A path leads from directory to directory, one name after another.  `FileTree.resolve` follows it
through a tree that is given as a value and says what can be read at its end, or why nothing can.

An empty name and a single dot stay where they are, and two dots go up, but all three only in a
directory; so a path that ends with a slash never leads to a file.
-/

namespace Determinization
namespace CommandLine

/-- Why a file cannot be read. -/
inductive FileError where
  | missing
  /-- A file stands where the path needs a directory. -/
  | notDirectory
  | isDirectory
  | nameTooLong
  | other (details : List Char)

/-- What is said about a file that cannot be read. -/
def FileError.message : FileError → List Char
  | missing => "No such file or directory (os error 2)".toList
  | notDirectory => "Not a directory (os error 20)".toList
  | isDirectory => "Is a directory (os error 21)".toList
  | nameTooLong => "File name too long (os error 36)".toList
  | other details => details

/-- What is read under the name of a file. -/
inductive FileSource where
  | content (text : List Char)
  /-- The standard input, under a name of its own. -/
  | standardInput

/-- The names that lead from the top to a file or directory. -/
abbrev Location := List (List Char)

/-- Files with their locations. -/
abbrev FileTree := List (Location × FileSource)

namespace FileTree

/-- Where relative paths begin: in a directory whose name cannot be written in a path. -/
def workingDirectory : Location := [[]]

/-- The directories that are there whether or not the tree has files in them. -/
def standingDirectories : List Location :=
  [[], workingDirectory] ++
    (["bin", "dev", "etc", "home", "lib", "mnt", "opt", "proc", "root", "run", "sbin", "srv", "sys",
      "tmp", "usr", "var"].map fun name => [name.toList])

/-- The files that every tree has: one without content, and the standard input. -/
def devices : FileTree :=
  [(["dev".toList, "null".toList], .content []),
    (["dev".toList, "stdin".toList], .standardInput)]

/-- The tree with files given by their paths in the working directory. -/
def ofFiles (files : List (List Char × List Char)) : FileTree :=
  devices ++ files.map fun f =>
    (workingDirectory ++ (Text.pieces '/' f.1).filter (!·.isEmpty), .content f.2)

/-- What is read at a location. -/
def source? (tree : FileTree) (here : Location) : Option FileSource :=
  (tree.find? fun f => f.1 == here).map Prod.snd

/-- Is a location a directory? -/
def isDirectory (tree : FileTree) (here : Location) : Bool :=
  standingDirectories.contains here || tree.any fun f => here.isPrefixOf f.1 && here != f.1

/-- How many bytes a text takes. -/
def byteCount (s : List Char) : Nat := s.foldl (fun n c => n + c.utf8Size) 0

/-- The greatest number of bytes in a name. -/
def nameLimit : Nat := 255

/-- The least number of bytes that is too large for a path. -/
def pathLimit : Nat := 4096

/-- Where a name leads from a location. -/
def enter (tree : FileTree) (here : Location) (name : List Char) : Except FileError Location :=
  if !tree.isDirectory here then .error .notDirectory
  else if name = [] ∨ name = ['.'] then .ok here
  else if name = ['.', '.'] then .ok here.dropLast
  else if nameLimit < byteCount name then .error .nameTooLong
  else
    let there := here ++ [name]
    if tree.isDirectory there || (tree.source? there).isSome then .ok there else .error .missing

/-- What is read at the end of a path. -/
def resolve (tree : FileTree) (path : List Char) : Except FileError FileSource := do
  if path.isEmpty then throw .missing
  if pathLimit ≤ byteCount path then throw .nameTooLong
  let start := if path.head? = some '/' then [] else workingDirectory
  let there ← (Text.pieces '/' path).foldlM tree.enter start
  match tree.source? there with
  | some source => pure source
  | none => throw .isDirectory

end FileTree
end CommandLine
end Determinization
