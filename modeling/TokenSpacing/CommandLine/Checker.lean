import TokenSpacing.CommandLine.Options
import TokenSpacing.Config.Overrides
import TokenSpacing.Report
import TokenSpacing.Text.Quoted

/-!
The command that checks files: its arguments, its settings, and what it prints.
-/

namespace TokenSpacing.CommandLine

inductive OutputFormat where
  | text
  | json
  deriving DecidableEq, Repr

structure CheckRequest where
  paths : List String
  config : Option (Given String)
  rules : Option (List (Given String))
  overrides : List (Given String)
  allowLineBreaks : Option Bool
  format : OutputFormat
  verbosity : Nat
  deriving DecidableEq, Repr

namespace CheckRequest

def defaults : CheckRequest :=
  ⟨[], none, none, [], none, .text, 0⟩

def addRule (request : CheckRequest) (key : Given String) : CheckRequest :=
  { request with rules := some (request.rules.getD [] ++ [key]) }

def setFormat (request : CheckRequest) (format : Given OutputFormat) : CheckRequest :=
  { request with format := format.value?.getD .text }

def grammar : Grammar CheckRequest where
  options :=
    [⟨["-h", "--help"], .help⟩,
     ⟨["--config"], .storing .ok fun path request => { request with config := some path }⟩,
     ⟨["--rule"], .storing (oneOf (Rule.all.map fun rule => (rule.key, rule.key)))
        fun key request => request.addRule key⟩,
     ⟨["--set"], .storing .ok fun item request =>
        { request with overrides := request.overrides ++ [item] }⟩,
     ⟨["--allow-line-breaks", "--no-allow-line-breaks"], .flag fun name request =>
        { request with allowLineBreaks := some (name == "--allow-line-breaks") }⟩,
     ⟨["--format"], .storing (oneOf [("text", OutputFormat.text), ("json", OutputFormat.json)])
        fun format request => request.setFormat format⟩,
     ⟨["-v", "--verbose"], .flag fun _ request =>
        { request with verbosity := request.verbosity + 1 }⟩]
  operands := some ⟨"paths", fun paths request => { request with paths := paths }⟩

def program : String := "nowhitespace"

def usage : String :=
  "usage: nowhitespace [-h] [--config CONFIG]\n" ++
  "                    [--rule \x7bno-whitespace-after,no-whitespace-before\x7d]\n" ++
  "                    [--set SECTION.OPTION=BOOL]\n" ++
  "                    [--allow-line-breaks | --no-allow-line-breaks]\n" ++
  "                    [--format \x7btext,json\x7d] [-v]\n" ++
  "                    paths [paths ...]\n"

def ruleList : String :=
  String.join (Rule.all.map fun rule =>
    "  " ++ rule.key ++ "\n      " ++ rule.description ++ "\n")

def help : String :=
  usage ++
  "\nReport Java tokens that are preceded or followed by forbidden whitespace\n" ++
  "\npositional arguments:\n" ++
  "  paths                 Java files or directories to check\n" ++
  "\noptions:\n" ++
  "  -h, --help            show this help message and exit\n" ++
  "  --config CONFIG       Settings file (nowhitespace.toml or pyproject.toml)\n" ++
  "  --rule \x7bno-whitespace-after,no-whitespace-before\x7d\n" ++
  "                        Run only this rule (repeatable, default: all)\n" ++
  "  --set SECTION.OPTION=BOOL\n" ++
  "                        Override one setting, e.g. after.type_cast=true\n" ++
  "                        (repeatable)\n" ++
  "  --allow-line-breaks, --no-allow-line-breaks\n" ++
  "                        Override allow_line_breaks for every rule\n" ++
  "  --format \x7btext,json\x7d  Output format\n" ++
  "  -v, --verbose         Log progress (-vv for debug output)\n" ++
  "\nrules:\n" ++ ruleList

def lineBreakOverrides : Option Bool → List String
  | none => []
  | some allowed =>
      let value := if allowed then "true" else "false"
      Rule.all.map fun rule => rule.sectionName ++ ".allow_line_breaks=" ++ value

def allOverrides (request : CheckRequest) : List (Given String) :=
  request.overrides ++ (lineBreakOverrides request.allowLineBreaks).map .value

def configPath (request : CheckRequest) : Except Failure (Option Path) :=
  match request.config with
  | none => .ok none
  | some (.value path) => .ok (some (Path.ofText path))
  | some .blank => .error .blankOption

/-- Overrides are read in order, so that a malformed one before a blank is what counts. -/
def override (request : CheckRequest) (config : Config) : Except Failure Config :=
  match Given.values? request.allOverrides with
  | some items => (config.override items).mapError .config
  | none =>
      match (Given.leading request.allOverrides).mapM Override.read with
      | .error fault => .error (.config ⟨Config.overrideSource, fault⟩)
      | .ok _ => .error .blankOverride

def settings (request : CheckRequest) (workspace : Workspace) : Logged Config := do
  let path ← .ofExcept request.configPath
  let loaded ← workspace.loadConfig path (request.paths.head?.map Path.ofText)
  .ofExcept (request.override loaded)

def ruleKeys (request : CheckRequest) : Except Failure (Option (List String)) :=
  match request.rules with
  | none => .ok none
  | some keys =>
      match Given.values? keys with
      | some keys => .ok (some keys)
      | none => .error .blankOption

def report (request : CheckRequest) (workspace : Workspace) : Logged Report := do
  let config ← request.settings workspace
  let keys ← .ofExcept request.ruleKeys
  workspace.checkPaths (request.paths.map Path.ofText) config keys

/-! ## Output -/

def jsonIssue (issue : Issue) : String :=
  let lines :=
    [("rule", Text.jsonString issue.rule.key), ("file", Text.jsonString issue.file),
     ("line", toString issue.position.line), ("column", toString issue.position.column),
     ("message", Text.jsonString issue.message)]
  "  \x7b\n" ++
    ",\n".intercalate (lines.map fun (name, value) =>
      "    " ++ Text.jsonString name ++ ": " ++ value) ++
    "\n  \x7d"

def jsonIssues : List Issue → String
  | [] => "[]"
  | issues => "[\n" ++ ",\n".intercalate (issues.map jsonIssue) ++ "\n]"

def showIssues (format : OutputFormat) (issues : List Issue) : String :=
  match format with
  | .text => String.join (issues.map fun issue => issue.format ++ "\n")
  | .json => jsonIssues issues ++ "\n"

def showErrors (errors : List ParseError) : String :=
  String.join (errors.map fun error => "error: " ++ error.message ++ "\n")

/-- Only warnings and errors are shown unless more is asked for, and then without their
level and source. -/
def showEntry (verbosity : Nat) (entry : LogEntry) : Option String :=
  let shown (least : LogLevel) (line : String) : Option String :=
    if least.rank ≤ entry.level.rank then some (line ++ "\n") else none
  let full := entry.level.name ++ " " ++ entry.source ++ ": " ++ entry.text
  match verbosity with
  | 0 => shown .warning entry.text
  | 1 => shown .info full
  | _ => shown .debug full

def showLog (verbosity : Nat) (log : List LogEntry) : String :=
  String.join (log.filterMap (showEntry verbosity))

def statusOf (report : Report) : Nat :=
  if !report.errors.isEmpty then 2 else if !report.issues.isEmpty then 1 else 0

/-- The message of a failure that ends the command with an error, if it is one of those
that a user can mend. -/
def reason? : Failure → Option String
  | .config error => some error.message
  | .unreadable location fault =>
      some ("[Errno " ++ toString fault.number ++ "] " ++ fault.text ++ ": " ++
        Text.quote location)
  | _ => none

def outcomeOf (request : CheckRequest) (logged : Logged Report) : Outcome Failure :=
  let log := showLog request.verbosity logged.log
  match logged.outcome with
  | .ok report =>
      ⟨.status (statusOf report), showIssues request.format report.issues,
        log ++ showErrors report.errors⟩
  | .error failure =>
      match reason? failure with
      | some text => ⟨.status 2, "", log ++ "error: " ++ text ++ "\n"⟩
      | none => ⟨.aborted failure, "", log⟩

end CheckRequest

def check (workspace : Workspace) (arguments : List String) : Outcome Failure :=
  match CheckRequest.grammar.parse .defaults arguments with
  | .error stop => stopOutcome CheckRequest.program CheckRequest.usage CheckRequest.help stop
  | .ok request => request.outcomeOf (request.report workspace)

end TokenSpacing.CommandLine
