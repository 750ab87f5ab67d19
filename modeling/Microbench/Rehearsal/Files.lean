/-!
# Files of a rehearsal

A small tree of directories and files, looked up by the parts of a path.

## Main definitions

* `Rehearsal.Files` — the tree.
* `Rehearsal.Files.read?` — the content of a file.
-/

namespace Microbench.Rehearsal

/-- Directories and files with their contents, each by the names from the root down. -/
structure Files where
  /-- The directories. -/
  dirs : List (List String) := []
  /-- The files. -/
  files : List (List String × String) := []

namespace Files

/-- The names of a path as it is written. -/
def split (path : String) : List String := path.splitOn "/"

/-- The directories above a place, outermost first, and the place. -/
def prefixes (place : List String) : List (List String) :=
  (List.range (place.length + 1)).map place.take

/-- A tree with the directories that its files need. -/
def ofLists (dirs : List String) (files : List (String × String)) : Files :=
  let files := files.map fun (path, content) => (split path, content)
  { dirs := ([] :: (dirs.map split).flatMap prefixes ++
      files.flatMap fun (place, _) => prefixes place.dropLast)
    files }

/-- Whether a place is a directory. -/
def isDir (t : Files) (place : List String) : Bool := t.dirs.contains place

/-- Where a path leads to from a directory; every part but the last must be one. -/
def resolve (t : Files) : List String → List String → Option (List String)
  | place, [] => some place
  | place, part :: rest =>
    if !t.isDir place then none
    else if part = "" ∨ part = "." then t.resolve place rest
    else if part = ".." then t.resolve place.dropLast rest
    else t.resolve (place ++ [part]) rest

/-- The content of the file that a path leads to. -/
def read? (t : Files) (path : List String) : Option String :=
  (t.resolve [] path).bind fun place =>
    if t.isDir place then none else (t.files.find? (·.1 = place)).map Prod.snd

/-- Whether a path leads to a file. -/
def isFile (t : Files) (path : List String) : Bool := (t.read? path).isSome

end Files

end Microbench.Rehearsal
