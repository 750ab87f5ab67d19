/-!
# Configuration documents

The values of a TOML document, and how statements build it up.  A table remembers
how it came about, because that decides what may still be added to it: a table
with a header of its own is closed for dotted keys, one made by dotted keys gets
no header, and an inline table gets nothing more at all.

## Main definitions

* `Toml` — a value.
* `Toml.Statement` — a line of a document: a header, or a key with its value.
* `Toml.Document` — a document with the table that is open.
* `Toml.Document.add` — one more statement.
-/

namespace Microbench

/-- How a table came about. -/
inductive Toml.Origin
  /-- On the way to the table of a header. -/
  | implicit
  /-- By a header of its own. -/
  | header
  /-- On the way to the value of a dotted key. -/
  | dotted
  /-- As a value. -/
  | inline
  deriving DecidableEq, Repr, Inhabited

/-- A value of a document. -/
inductive Toml
  /-- A text. -/
  | string (s : String)
  /-- A whole number. -/
  | integer (n : Int)
  /-- A floating point number. -/
  | float
  /-- A truth value. -/
  | bool (b : Bool)
  /-- A date, a time, or both. -/
  | time
  /-- Values in order. -/
  | array (items : List Toml)
  /-- Named values. -/
  | table (origin : Toml.Origin) (entries : List (String × Toml))
  /-- The tables of repeated headers; the last one is open. -/
  | tables (items : List Toml)
  deriving Inhabited

namespace Toml

/-- The entries of a table with how it came about. -/
abbrev Table := Origin × List (String × Toml)

/-- The value of a key. -/
def lookUp (k : String) (entries : List (String × Toml)) : Option Toml :=
  (entries.find? fun e => e.1 = k).map Prod.snd

/-- Put a value under a key, in its place if the key is there and at the end if not. -/
def put (k : String) (v : Toml) : List (String × Toml) → List (String × Toml)
  | [] => [(k, v)]
  | e :: rest => if e.1 = k then (k, v) :: rest else e :: put k v rest

/-- Change the table at the end of a path.  Tables that are missing on the way are made;
with `dotted` set the way must not lead through a table that has a header. -/
def changeAt (dotted : Bool) (change : Table → Option Table) : List String → Table → Option Table
  | [], found => change found
  | k :: path, (origin, entries) =>
    match lookUp k entries with
    | none => do
      let (o, es) ← changeAt dotted change path (if dotted then .dotted else .implicit, [])
      return (origin, put k (.table o es) entries)
    | some (.table o es) =>
      if o = .inline ∨ (dotted ∧ o = .header) then none
      else do
        let (o, es) ← changeAt dotted change path (o, es)
        return (origin, put k (.table o es) entries)
    | some (.tables items) =>
      match items.getLast? with
      | some (.table o es) => do
        let (o, es) ← changeAt dotted change path (o, es)
        return (origin, put k (.tables (items.dropLast ++ [.table o es])) entries)
      | _ => none
    | some _ => none

/-- Add a key with its value to the table that its path leads to from an open table. -/
def addEntry (path : List String) (k : String) (v : Toml) : Table → Option Table :=
  changeAt true (fun (origin, entries) =>
    if (origin = .dotted) = path.isEmpty then none
    else if (lookUp k entries).isSome then none
    else some (origin, entries ++ [(k, v)])) path

/-- A statement of a document. -/
inductive Statement
  /-- The header of a table. -/
  | header (path : List String) (key : String)
  /-- The header of one more table of an array. -/
  | arrayHeader (path : List String) (key : String)
  /-- A key with its value. -/
  | entry (path : List String) (key : String) (value : Toml)

/-- A document with the path of the table that is open. -/
structure Document where
  /-- The root table. -/
  root : Table := (.header, [])
  /-- The path of the open table. -/
  current : List String := []

/-- Open a table by its header. -/
def openTable (path : List String) (key : String) : Table → Option Table :=
  changeAt false (fun (origin, entries) =>
    match lookUp key entries with
    | none => some (origin, entries ++ [(key, .table .header [])])
    | some (.table .implicit es) => some (origin, put key (.table .header es) entries)
    | some _ => none) path

/-- Open one more table of an array by its header. -/
def openArrayTable (path : List String) (key : String) : Table → Option Table :=
  changeAt false (fun (origin, entries) =>
    match lookUp key entries with
    | none => some (origin, entries ++ [(key, .tables [.table .header []])])
    | some (.tables items) =>
      some (origin, put key (.tables (items ++ [.table .header []])) entries)
    | some _ => none) path

/-- One more statement; `none` if it contradicts those before it. -/
def Document.add (d : Document) : Statement → Option Document
  | .header path key => do
    let root ← openTable path key d.root
    return ⟨root, path ++ [key]⟩
  | .arrayHeader path key => do
    let root ← openArrayTable path key d.root
    return ⟨root, path ++ [key]⟩
  | .entry path key value => do
    let root ← changeAt false (addEntry path key value) d.current d.root
    return { d with root }

end Toml

end Microbench
