import SourceAudit.Toml.Value

/-!
# Putting a document together

The lines of a document name tables and set keys in them, and a table may be named in several
lines. A draft remembers of every table how it came to be, for that decides what a later line may
still do: a header may finish a table that longer headers only implied, and a dotted key may extend
a table that dotted keys made. Everything else is set once.
-/

namespace SourceAudit.Toml

/-! ## Algorithm -/

/-- How a table came to be. -/
inductive Origin
  | implied
  | dotted
  | declared
deriving DecidableEq

/-- A value under construction. Only tables can change later. -/
inductive Draft
  | done (value : Value)
  | table (origin : Origin) (entries : List (Text × Draft))
  | tables (items : List (List (Text × Draft)))

abbrev DraftTable := List (Text × Draft)

mutual

def Draft.finish : Draft → Value
  | .done value => value
  | .table _ entries => .table (finishTable entries)
  | .tables items => .array (finishTables items)

def finishTable : List (Text × Draft) → List (Text × Value)
  | [] => []
  | (key, draft) :: rest => (key, draft.finish) :: finishTable rest

def finishTables : List (List (Text × Draft)) → List Value
  | [] => []
  | entries :: rest => .table (finishTable entries) :: finishTables rest

end

namespace DraftTable

/-- Set a key or replace what it had, in place. -/
def put (key : Text) (draft : Draft) : DraftTable → DraftTable
  | [] => [(key, draft)]
  | (k, d) :: rest => if k = key then (key, draft) :: rest else (k, d) :: put key draft rest

/-- Set the key at the end of a dotted path. -/
def assign (value : Draft) : List Text → DraftTable → Option DraftTable
  | [], _ => none
  | [key], entries =>
    match entries.lookup key with
    | some _ => none
    | none => some (put key value entries)
  | key :: next :: path, entries =>
    match entries.lookup key with
    | none => (assign value (next :: path) []).map fun t => put key (.table .dotted t) entries
    | some (.table .dotted inner) =>
      (assign value (next :: path) inner).map fun t => put key (.table .dotted t) entries
    | some _ => none

/-- Change the table that a header's path leads to. Through an array of tables the way goes by its
last one; tables that are missing on the way are implied. -/
def within (change : DraftTable → Option DraftTable) : List Text → DraftTable → Option DraftTable
  | [], entries => change entries
  | key :: path, entries =>
    match entries.lookup key with
    | none => (within change path []).map fun t => put key (.table .implied t) entries
    | some (.table origin inner) =>
      (within change path inner).map fun t => put key (.table origin t) entries
    | some (.tables items) =>
      match items.getLast? with
      | none => none
      | some last =>
        (within change path last).map fun t => put key (.tables (items.dropLast ++ [t])) entries
    | some (.done _) => none

/-- A header names a table: a new one, or one that was only implied. -/
def declare (key : Text) (entries : DraftTable) : Option DraftTable :=
  match entries.lookup key with
  | none => some (put key (.table .declared []) entries)
  | some (.table .implied inner) => some (put key (.table .declared inner) entries)
  | some _ => none

/-- A header in double brackets adds a table to an array of tables. -/
def declareItem (key : Text) (entries : DraftTable) : Option DraftTable :=
  match entries.lookup key with
  | none => some (put key (.tables [[]]) entries)
  | some (.tables items) => some (put key (.tables (items ++ [[]])) entries)
  | some _ => none

end DraftTable

/-- One line of a document that says something. Every path has at least one key. -/
inductive Statement
  | header (path : List Text)
  | itemHeader (path : List Text)
  | assignment (path : List Text) (value : Value)

/-- A document so far, and the path of the table that keys are set in. -/
structure DraftDocument where
  entries : DraftTable
  current : List Text

def DraftDocument.step (d : DraftDocument) : Statement → Option DraftDocument
  | .header path =>
    (DraftTable.within (DraftTable.declare (path.getLastD [])) path.dropLast d.entries).map
      (⟨·, path⟩)
  | .itemHeader path =>
    (DraftTable.within (DraftTable.declareItem (path.getLastD [])) path.dropLast d.entries).map
      (⟨·, path⟩)
  | .assignment path value =>
    (DraftTable.within (DraftTable.assign (.done value) path) d.current d.entries).map
      (⟨·, d.current⟩)

/-- The document that statements make, if no two of them contradict each other. -/
def Table.ofStatements? (statements : List Statement) : Option Table := do
  let d ← statements.foldlM DraftDocument.step ⟨[], []⟩
  return finishTable d.entries

/-- An inline table: its keys, dotted or not, set one after the other. -/
def Table.ofAssignments? (assignments : List (List Text × Value)) : Option Table := do
  let entries ← assignments.foldlM
    (fun (t : DraftTable) (a : List Text × Value) => t.assign (.done a.2) a.1) []
  return finishTable entries

end SourceAudit.Toml
