import TokenSpacing.Text.Layout

/-!
Paths as they are written, and the absolute locations they resolve to.
-/

namespace TokenSpacing

abbrev Location := List String

namespace Location

def text (location : Location) : String :=
  "/" ++ "/".intercalate location

def ancestry (location : Location) : List Location :=
  (List.range (location.length + 1)).reverse.map fun length => location.take length

def atOrBefore : Location → Location → Bool
  | [], _ => true
  | _ :: _, [] => false
  | first :: rest, second :: others =>
      first < second || (first == second && atOrBefore rest others)

end Location

/-- A path: the slashes in front of it, and its names without empty ones and dots.  Two
dots are kept. -/
structure Path where
  root : String
  parts : List String
  deriving DecidableEq, Repr

namespace Path

/-- More than two slashes in front are as good as one. -/
def rootOf (text : List Char) : String :=
  match (text.takeWhile (· == '/')).length with
  | 0 => ""
  | 2 => "//"
  | _ => "/"

def ofText (text : String) : Path where
  root := rootOf text.toList
  parts := ((Text.splitAt '/' text.toList).map String.ofList).filter fun part =>
    !part.isEmpty && part != "."

def text (path : Path) : String :=
  if path.root.isEmpty && path.parts.isEmpty then "."
  else path.root ++ "/".intercalate path.parts

def step (location : Location) (part : String) : Location :=
  if part == ".." then location.dropLast else location ++ [part]

def resolve (path : Path) (current : Location) : Location :=
  path.parts.foldl step (if path.root.isEmpty then current else [])

def append (path : Path) (parts : List String) : Path :=
  { path with parts := path.parts ++ parts }

def user? (path : Path) : Option String :=
  match path.root.isEmpty, path.parts.head?.map String.toList with
  | true, some ('~' :: name) => some (String.ofList name)
  | _, _ => none

end Path

/-- What the system gives for the home directories of users.  The user who runs the
program has no name. -/
class Homes where
  home? : String → Option String

instance : Homes :=
  ⟨fun _ => none⟩

end TokenSpacing
