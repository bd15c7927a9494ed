import BoardRollup.Fields
import BoardRollup.Number.Double

/-!
# TOML tables

A document is one table, built statement by statement. How a table came about
decides what later statements may still do to it: a header may open a table that only
earlier headers implied, a dotted key may go on in a table that dotted keys made,
and a value is closed once it is written. No statement gives a key twice.
-/

namespace BoardRollup

/-- How a table came about. -/
inductive TableOrigin where
  /-- A header names it. -/
  | header
  /-- A longer header names it on the way. -/
  | implied
  /-- A dotted key names it on the way. -/
  | dotted
  /-- It is written as a value. -/
  | literal
  deriving DecidableEq

inductive Toml where
  | text (s : String)
  | integer (n : Int)
  | float (x : Double)
  | boolean (b : Bool)
  /-- A date, a time or both, of which nothing is kept. -/
  | moment
  | array (items : List Toml)
  | table (origin : TableOrigin) (fields : List (String × Toml))
  /-- A table for each header that names it, the latest first. -/
  | tables (latest : List (String × Toml)) (earlier : List (List (String × Toml)))

abbrev TomlTable := List (String × Toml)

namespace TomlTable

/-- Gives a key under a table, on a path of dotted keys. The table that takes the key
is the one the path starts from or one that dotted keys made; the way to it may
pass through tables that headers made. -/
def give (value : Toml) : (path : List String) → (takes : Bool) → TomlTable → Option TomlTable
  | [], _, _ => none
  | [key], takes, table =>
    if takes && (table.lookup key).isNone then some (table ++ [(key, value)]) else none
  | key :: path, _, table =>
    match table.lookup key with
    | none => (give value path true []).map fun inner => table ++ [(key, .table .dotted inner)]
    | some (.table .dotted fields) =>
      (give value path true fields).map fun inner => Fields.set key (.table .dotted inner) table
    | some (.table .implied fields) =>
      (give value path false fields).map fun inner => Fields.set key (.table .implied inner) table
    | some (.tables latest earlier) =>
      (give value path false latest).map fun inner => Fields.set key (.tables inner earlier) table
    | some _ => none

/-- Changes the table that a header path leads to, the latest one of each list of
tables. Missing tables on the way are implied. -/
def descend (change : TomlTable → Option TomlTable) : List String → TomlTable → Option TomlTable
  | [], table => change table
  | key :: path, table =>
    match table.lookup key with
    | none => (descend change path []).map fun inner => table ++ [(key, .table .implied inner)]
    | some (.table .literal _) => none
    | some (.table origin fields) =>
      (descend change path fields).map fun inner => Fields.set key (.table origin inner) table
    | some (.tables latest earlier) =>
      (descend change path latest).map fun inner => Fields.set key (.tables inner earlier) table
    | some _ => none

/-- Opens the table of a header: a new one, or one that was only implied. -/
def openTable (key : String) (table : TomlTable) : Option TomlTable :=
  match table.lookup key with
  | none => some (table ++ [(key, .table .header [])])
  | some (.table .implied fields) => some (Fields.set key (.table .header fields) table)
  | some _ => none

/-- Opens a further table of a list of tables. -/
def appendTable (key : String) (table : TomlTable) : Option TomlTable :=
  match table.lookup key with
  | none => some (table ++ [(key, .tables [] [])])
  | some (.tables latest earlier) =>
    some (Fields.set key (.tables [] (latest :: earlier)) table)
  | some _ => none

end TomlTable

inductive TomlStatement where
  /-- Gives a key in the open table. -/
  | entry (path : List String) (value : Toml)
  /-- Opens a table. -/
  | header (path : List String)
  /-- Opens a further table of a list. -/
  | listHeader (path : List String)

/-- A document in the making. -/
structure TomlDraft where
  root : TomlTable
  /-- The path of the open table. -/
  current : List String

namespace TomlDraft

def empty : TomlDraft := ⟨[], []⟩

/-- Opens the table that the last key of a path names. -/
def openWith (change : String → TomlTable → Option TomlTable) (path : List String)
    (draft : TomlDraft) : Option TomlDraft := do
  let key ← path.getLast?
  let root ← TomlTable.descend (change key) path.dropLast draft.root
  some ⟨root, path⟩

def apply (draft : TomlDraft) : TomlStatement → Option TomlDraft
  | .entry path value => do
    let root ← TomlTable.descend (TomlTable.give value path true) draft.current draft.root
    some { draft with root }
  | .header path => openWith TomlTable.openTable path draft
  | .listHeader path => openWith TomlTable.appendTable path draft

end TomlDraft

end BoardRollup
