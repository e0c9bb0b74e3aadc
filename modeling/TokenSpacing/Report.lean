import TokenSpacing.Files.Workspace

/-!
Reports over many files.

A file that does not parse is recorded and the others are still checked; every other
failure ends the run.
-/

namespace TokenSpacing

structure Report where
  issues : List Issue
  errors : List ParseError
  files : List String
  deriving DecidableEq, Repr

namespace Report

def empty : Report :=
  ⟨[], [], []⟩

def append (first second : Report) : Report :=
  ⟨first.issues ++ second.issues, first.errors ++ second.errors, first.files ++ second.files⟩

def isClean (report : Report) : Bool :=
  report.issues.isEmpty && report.errors.isEmpty

end Report

namespace Workspace

def reportUnit (path : Path) (parsed : Except ParseError (SourceUnit Unit))
    (checks : List Check) : Logged Report :=
  match parsed with
  | .error error => do
      .note .warning "nowhitespace.api"
        ("skipping " ++ path.text ++ ": " ++ error.fault.text)
      return ⟨[], [error], []⟩
  | .ok unit =>
      let checked := checkUnit unit checks
      match checked.outcome with
      | .ok issues => ⟨checked.log, .ok ⟨issues, [], [unit.file]⟩⟩
      | .error failure => do
          .note .error "nowhitespace.api" ("internal error while checking " ++ path.text)
          .fail failure

/-- Parse errors become values; every other failure stays one. -/
def catchParseError {α : Type} (parsed : Logged α) : Logged (Except ParseError α) :=
  match parsed.outcome with
  | .ok value => ⟨parsed.log, .ok (.ok value)⟩
  | .error (.parse error) => ⟨parsed.log, .ok (.error error)⟩
  | .error failure => ⟨parsed.log, .error failure⟩

def reportFile (workspace : Workspace) (checks : List Check) (path : Path) : Logged Report := do
  .note .debug "nowhitespace.api" ("checking " ++ path.text)
  let parsed ← catchParseError (workspace.parseFile path)
  reportUnit path parsed checks

def reportFiles (workspace : Workspace) (checks : List Check) : List Path → Logged Report
  | [] => return .empty
  | path :: rest => do
      let first ← workspace.reportFile checks path
      return first.append (← workspace.reportFiles checks rest)

def checkPaths (workspace : Workspace) (paths : List Path) (config : Config)
    (rules : Option (List String)) : Logged Report := do
  let checks ← .ofExcept (chosenChecks config rules)
  let listing := workspace.listing paths
  let report ← workspace.reportFiles checks listing.files
  .ofExcept listing.ending
  .note .info "nowhitespace.api"
    ("checked " ++ toString report.files.length ++ " file(s): " ++
      toString report.issues.length ++ " issue(s), " ++ toString report.errors.length ++
      " unparsable")
  return report

end Workspace

end TokenSpacing
