import TokenSpacing.Config.Error
import TokenSpacing.Files.Path
import TokenSpacing.Text.Utf8

/-!
A snapshot of files and directories, and what changes make of it.
-/

namespace TokenSpacing

structure FileTree where
  files : List (Location × List UInt8)
  directories : List Location

namespace FileTree

def isFile (tree : FileTree) (location : Location) : Bool :=
  (tree.files.lookup location).isSome

/-- A directory is listed, or something is below it. -/
def isDirectory (tree : FileTree) (location : Location) : Bool :=
  location.isEmpty || tree.directories.any location.isPrefixOf ||
    tree.files.any fun (file, _) => location.isPrefixOf file && location.length < file.length

def faultAt (tree : FileTree) (location : Location) : ReadFault :=
  if tree.isDirectory location then .isDirectory
  else if location.ancestry.any tree.isFile then .notDirectory
  else .notFound

def read (tree : FileTree) (location : Location) : Except ReadFault (List UInt8) :=
  match tree.files.lookup location with
  | some bytes => .ok bytes
  | none => .error (tree.faultAt location)

/-- Follows names from a location; every name but the last has to be a directory. -/
def walkTo (tree : FileTree) (location : Location) : List String → Except ReadFault Location
  | [] => .ok location
  | part :: rest =>
      if tree.isDirectory location then tree.walkTo (Path.step location part) rest
      else if tree.isFile location then .error .notDirectory
      else .error .notFound

def locate (tree : FileTree) (current : Location) (path : Path) : Except ReadFault Location :=
  tree.walkTo (if path.root.isEmpty then current else []) path.parts

def directoryAt? (tree : FileTree) (current : Location) (path : Path) : Option Location :=
  match tree.locate current path with
  | .ok location => if tree.isDirectory location then some location else none
  | .error _ => none

def readAt (tree : FileTree) (current : Location) (path : Path) :
    Except ReadFault (List UInt8) := do
  tree.read (← tree.locate current path)

def filesBelow (tree : FileTree) (directory : Location) (ending : String) : List Location :=
  let below := tree.files.filterMap fun (file, _) =>
    let inside := directory.isPrefixOf file && directory.length < file.length
    if inside && ending.toList.isSuffixOf (file.getLast?.getD "").toList then
      some (file.drop directory.length)
    else
      none
  below.mergeSort Location.atOrBefore

end FileTree

inductive FileChange where
  | makeDirectory (location : Location)
  | write (location : Location) (text : List Char)
  deriving DecidableEq, Repr

def FileChange.written? : FileChange → Option (Location × List Char)
  | makeDirectory _ => none
  | write location text => some (location, text)

/-- The snapshot after a change.  A file that is written takes the place of an older one. -/
def FileTree.apply (tree : FileTree) : FileChange → FileTree
  | .makeDirectory location => { tree with directories := location :: tree.directories }
  | .write location text =>
      let others := tree.files.filter fun (file, _) => file != location
      { tree with files := (location, Text.encode text) :: others }

end TokenSpacing
