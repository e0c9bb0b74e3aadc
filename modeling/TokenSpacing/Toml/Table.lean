import TokenSpacing.Config.Value

/-!
Nested tables under construction, and which of them are closed.

A key path leads through tables and, outside of inline tables, through the last table
of an array.  Marks record the paths that a document may no longer open or change.
-/

namespace TokenSpacing.Toml

abbrev KeyPath := List String

/-- Changes the table at a path, which is created where it is missing.  There is none if
the path runs into another kind of value. -/
def modifyTable (throughArrays : Bool) (change : Entries → Option Entries) :
    KeyPath → Entries → Option Entries
  | [], entries => change entries
  | key :: path, entries =>
      let below := modifyTable throughArrays change path
      match entries.lookup key with
      | none => (below []).map fun table => entries.put key (.table table)
      | some (.table table) => (below table).map fun table => entries.put key (.table table)
      | some (.array items) =>
          match throughArrays, items.getLast? with
          | true, some (.table table) => (below table).map fun table =>
              entries.put key (.array (items.dropLast ++ [.table table]))
          | _, _ => none
      | some _ => none

def addEntry (key : String) (value : Value) (entries : Entries) : Option Entries :=
  match entries.lookup key with
  | none => some (entries.put key value)
  | some _ => none

def appendTable (key : String) (entries : Entries) : Option Entries :=
  match entries.lookup key with
  | none => some (entries.put key (.array [.table []]))
  | some (.array items) => some (entries.put key (.array (items ++ [.table []])))
  | some _ => none

def splitPath (path : KeyPath) : KeyPath × String :=
  (path.dropLast, path.getLast?.getD "")

inductive Mark where
  | opened (path : KeyPath)
  | sealed (path : KeyPath)
  deriving DecidableEq, Repr

def isOpened (marks : List Mark) (path : KeyPath) : Bool :=
  marks.contains (.opened path)

def isSealed (marks : List Mark) (path : KeyPath) : Bool :=
  marks.any fun
    | .sealed above => above.isPrefixOf path
    | .opened _ => false

def forget (marks : List Mark) (path : KeyPath) : List Mark :=
  marks.filter fun
    | .opened marked | .sealed marked => !path.isPrefixOf marked

def isInline : Value → Bool
  | .array _ | .table _ => true
  | _ => false

end TokenSpacing.Toml
