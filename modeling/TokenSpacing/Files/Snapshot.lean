import TokenSpacing.Files.Workspace
import TokenSpacing.Text.Numeral

/-!
Snapshots: the files of a workspace and their concrete trees as lines of text.

Every line holds fields between tabs.  `current` names the directory that relative
paths start from, `directory` a directory, `home` the home directory of a user, and
`file` a file with its bytes in hexadecimal.  The lines `node` after a file are the
outline of its tree: depth, type, the row, column and byte of both ends, and flags.
-/

namespace TokenSpacing

structure Snapshot where
  current : Location
  directories : List Location
  homes : List (String × String)
  files : List (Location × List UInt8 × List (Nat × Java.Info))

namespace Snapshot

def empty : Snapshot :=
  ⟨[], [], [], []⟩

def location (path : List Char) : Location :=
  (Path.ofText (String.ofList path)).resolve []

def hexBytes : List Char → List UInt8
  | high :: low :: rest =>
      (16 * Text.hexDigitValue high + Text.hexDigitValue low).toUInt8 :: hexBytes rest
  | _ => []

def point (row column : List Char) : Java.Point :=
  ⟨Text.digitsValue row, Text.digitsValue column⟩

def nodeInfo (type : List Char) (start stop : Java.Point) (startByte stopByte : List Char)
    (flags : List Char) : Java.Info where
  type := String.ofList type
  start := start
  stop := stop
  startByte := Text.digitsValue startByte
  stopByte := Text.digitsValue stopByte
  hasError := flags.contains 'e'
  isMissing := flags.contains 'm'
  fillsType := flags.contains 'T'

def addRow (snapshot : Snapshot) (depth : Nat) (info : Java.Info) : Snapshot :=
  match snapshot.files with
  | [] => snapshot
  | (file, bytes, outline) :: rest =>
      { snapshot with files := (file, bytes, (depth, info) :: outline) :: rest }

/-- Adds what a line says; lines of any other form say nothing. -/
def addLine (snapshot : Snapshot) (line : List Char) : Snapshot :=
  match Text.splitAt '\t' line with
  | keyword :: path :: fields =>
      match String.ofList keyword, fields with
      | "current", [] => { snapshot with current := location path }
      | "directory", [] =>
          { snapshot with directories := location path :: snapshot.directories }
      | "home", [user] =>
          let home := (String.ofList user, String.ofList path)
          { snapshot with homes := home :: snapshot.homes }
      | "file", [hex] =>
          { snapshot with files := (location path, hexBytes hex, []) :: snapshot.files }
      | "node", type :: row :: column :: byte :: stopRow :: stopColumn :: stopByte :: flags =>
          snapshot.addRow (Text.digitsValue path)
            (nodeInfo type (point row column) (point stopRow stopColumn) byte stopByte
              flags.flatten)
      | _, _ => snapshot
  | _ => snapshot

def ofLines (lines : List (List Char)) : Snapshot :=
  lines.foldl addLine empty

def emptyTree : Java.Concrete :=
  .leaf "program" 0 0

def tree (snapshot : Snapshot) (text : List Char) : Java.Concrete :=
  let found := snapshot.files.findSome? fun (_, bytes, outline) =>
    if bytes == Text.encode text then Java.Concrete.ofOutline? outline.reverse else none
  found.getD emptyTree

def workspace (snapshot : Snapshot) : Workspace where
  files :=
    ⟨snapshot.files.map fun (file, bytes, _) => (file, bytes),
      snapshot.current :: snapshot.directories⟩
  current := snapshot.current
  parser := snapshot.tree
  homes := ⟨fun user => snapshot.homes.lookup user⟩

end Snapshot

end TokenSpacing
