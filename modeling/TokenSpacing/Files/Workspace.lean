import TokenSpacing.Config.Reading
import TokenSpacing.Check
import TokenSpacing.Failure
import TokenSpacing.Files.FileTree
import TokenSpacing.Scan
import TokenSpacing.Toml.Reader

/-!
Files, the directory that relative paths start from, the home directories of users, and a
parser of Java: all that a run needs from outside.
-/

namespace TokenSpacing

structure Workspace where
  files : FileTree
  current : Location
  parser : List Char → Java.Concrete
  [homes : Homes]

namespace Workspace

def expand (workspace : Workspace) (path : Path) : Except Failure Path :=
  match path.user? with
  | none => .ok path
  | some user =>
      match workspace.homes.home? user with
      | none => .error .unknownHome
      | some home =>
          if ['~'].isPrefixOf home.toList then .error .unknownHome
          else .ok ((Path.ofText home).append path.parts.tail)

def resolve (workspace : Workspace) (path : Path) : Except Failure Location := do
  return (← workspace.expand path).resolve workspace.current

/-! ## Java files -/

/-- Where the byte at `offset` stands: behind the line feeds before it, and behind the
characters since the last of them, if these bytes are text. -/
def positionOfByte? (bytes : List UInt8) (offset : Nat) : Option Position :=
  let before := bytes.take offset
  let line := (before.reverse.takeWhile (· != 0x0a)).reverse
  (Text.decode? line).map fun text => ⟨before.count 0x0a + 1, text.length + 1⟩

def decodeFile (file : String) (bytes : List UInt8) : Except Failure (List Char) :=
  match Text.decodeLongest bytes with
  | (text, []) => .ok text
  | (_, byte :: rest) =>
      match positionOfByte? bytes (bytes.length - (byte :: rest).length) with
      | some position => .error (.parse ⟨⟨file, position, position⟩, .notUtf8⟩)
      | none => .error (.unconvertible .undecodableToken)

def readFile (workspace : Workspace) (location : Location) : Except Failure (List UInt8) :=
  match workspace.files.read location with
  | .ok bytes => .ok bytes
  | .error fault => .error (.unreadable location.text fault)

def parseText (workspace : Workspace) (file : String) (text : List Char) :
    Logged (SourceUnit Unit) :=
  match Java.parseText file text (workspace.parser text) with
  | .error failure => .fail (.ofParse failure)
  | .ok unit => do
      .note .debug "nowhitespace.java"
        ("parsed " ++ file ++ " (" ++ toString unit.lines.length ++ " lines)")
      return unit

def parseFile (workspace : Workspace) (path : Path) : Logged (SourceUnit Unit) := do
  let location ← .ofExcept (workspace.resolve path)
  let bytes ← .ofExcept (workspace.readFile location)
  let text ← .ofExcept (decodeFile location.text bytes)
  workspace.parseText location.text text

def checkUnit (unit : SourceUnit Unit) (checks : List Check) : Logged (List Issue) :=
  match unit.issues checks with
  | .error violation => .fail (.violation violation)
  | .ok issues => do
      .note .debug "nowhitespace.api"
        (unit.file ++ ": " ++ toString issues.length ++ " issue(s)")
      return issues

def chosenChecks (config : Config) (rules : Option (List String)) :
    Except Failure (List Check) :=
  match config.checks rules with
  | .ok checks => .ok checks
  | .error error => .error (.config error)

def checkText (workspace : Workspace) (file : String) (text : List Char) (config : Config)
    (rules : Option (List String)) : Logged (List Issue) := do
  let unit ← workspace.parseText file text
  let checks ← .ofExcept (chosenChecks config rules)
  checkUnit unit checks

def checkFile (workspace : Workspace) (path : Path) (config : Config)
    (rules : Option (List String)) : Logged (List Issue) := do
  let unit ← workspace.parseFile path
  let checks ← .ofExcept (chosenChecks config rules)
  checkUnit unit checks

def javaFilesAt (workspace : Workspace) (path : Path) : Except Failure (List Path) := do
  let path ← workspace.expand path
  match workspace.files.directoryAt? workspace.current path with
  | none => return [path]
  | some directory => return (workspace.files.filesBelow directory ".java").map path.append

end Workspace

structure Listing where
  files : List Path
  ending : Except Failure Unit

namespace Workspace

/-- The Java files at some paths.  A path that cannot be expanded is noticed when the files
before it have been met. -/
def listing (workspace : Workspace) : List Path → Listing
  | [] => ⟨[], .ok ()⟩
  | path :: rest =>
      match workspace.javaFilesAt path with
      | .error failure => ⟨[], .error failure⟩
      | .ok files =>
          let later := workspace.listing rest
          ⟨files ++ later.files, later.ending⟩

def javaFiles (workspace : Workspace) (paths : List Path) : List Path :=
  (workspace.listing paths).files

/-! ## Settings files -/

def configFileName : String := "nowhitespace.toml"

def projectFileName : String := "pyproject.toml"

def toolName : String := "nowhitespace"

def readSettings (workspace : Workspace) (location : Location) : Except Failure Entries :=
  match workspace.files.read location with
  | .error fault => .error (.config ⟨location.text, .unreadable fault⟩)
  | .ok bytes =>
      match Text.decode? bytes with
      | none => .error .undecodableSettings
      | some text =>
          match Toml.read text with
          | .ok entries => .ok entries
          | .error .malformed => .error (.config ⟨location.text, .notToml⟩)
          | .error .longInteger => .error .longInteger

def toolTable? (project : Entries) : Except Failure (Option Entries) :=
  match project.lookup "tool" with
  | none => .ok none
  | some (.table tools) =>
      match tools.lookup toolName with
      | some (.table entries) => .ok (some entries)
      | _ => .ok none
  | some _ => .error .toolsNotTable

def configIn? (workspace : Workspace) (directory : Location) :
    Except Failure (Option Location) :=
  let own := directory ++ [configFileName]
  let project := directory ++ [projectFileName]
  if workspace.files.isFile own then .ok (some own)
  else if workspace.files.isFile project then do
    let entries ← workspace.readSettings project
    return (← toolTable? entries).map fun _ => project
  else .ok none

def firstConfig? (workspace : Workspace) : List Location → Except Failure (Option Location)
  | [] => .ok none
  | directory :: above => do
      match ← workspace.configIn? directory with
      | some found => return some found
      | none => workspace.firstConfig? above

def startDirectory (workspace : Workspace) (location : Location) : Location :=
  if workspace.files.isFile location then location.dropLast else location

def findConfig (workspace : Workspace) (start : Path) : Except Failure (Option Location) := do
  let location ← workspace.resolve start
  workspace.firstConfig? (workspace.startDirectory location).ancestry

def loadFile (workspace : Workspace) (location : Location) : Except Failure Config := do
  let entries ← workspace.readSettings location
  let entries ←
    if location.getLast? = some projectFileName then
      pure ((← toolTable? entries).getD [])
    else
      pure entries
  match Config.ofEntries location.text entries with
  | .ok config => return config
  | .error error => .error (.config error)

/-- The settings of the given file, or of the nearest one above the start.  Without any
file all settings have their defaults. -/
def loadConfig (workspace : Workspace) (path start : Option Path) : Logged Config := do
  match path with
  | some path => .ofExcept (do workspace.loadFile (← workspace.resolve path))
  | none =>
      match ← .ofExcept (workspace.findConfig (start.getD (.ofText "."))) with
      | none =>
          .note .debug "nowhitespace.config" "no configuration file found, using defaults"
          return .default
      | some found =>
          .note .debug "nowhitespace.config" ("using configuration from " ++ found.text)
          .ofExcept (workspace.loadFile found)

end Workspace

end TokenSpacing
