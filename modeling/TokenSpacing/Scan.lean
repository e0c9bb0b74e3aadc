import TokenSpacing.Check

/-!
One walk over a file that feeds every check the sites it asks for, and the issues of the
file: the findings of all checks in the order of their positions.
-/

namespace TokenSpacing

variable {Mark : Type}

structure Pass (Mark : Type) where
  check : Check
  findings : List (Finding Mark)

namespace Pass

def start (check : Check) : Pass Mark :=
  ⟨check, []⟩

def visit (pass : Pass Mark) (source : SourceText) (site : Site Mark) :
    Except Violation (Pass Mark) := do
  let found ← pass.check.visit source site
  return { pass with findings := pass.findings ++ found.toList }

def feed (pass : Pass Mark) (source : SourceText) (site : Site Mark) :
    Except Violation (Pass Mark) :=
  if pass.check.asksFor site.item then pass.visit source site else .ok pass

end Pass

def feedAll (source : SourceText) (site : Site Mark) :
    List (Pass Mark) → Except Violation (List (Pass Mark))
  | [] => .ok []
  | pass :: rest => do
      let fed ← pass.feed source site
      return fed :: (← feedAll source site rest)

/-- Feeds sites to all passes.  The first violation in document order ends the scan. -/
def feedSites (source : SourceText) :
    List (Site Mark) → List (Pass Mark) → Except Violation (List (Pass Mark))
  | [], passes => .ok passes
  | site :: rest, passes => do
      feedSites source rest (← feedAll source site passes)

namespace SourceUnit

def source (unit : SourceUnit Mark) : SourceText :=
  SourceText.ofLines unit.lines unit.separator

def text (unit : SourceUnit Mark) : List Char :=
  joinLines unit.separator unit.lines

def scan (unit : SourceUnit Mark) (checks : List Check) :
    Except Violation (List (Pass Mark)) :=
  feedSites unit.source (unit.root.sites none) (checks.map Pass.start)

end SourceUnit

/-! ## Issues -/

structure Issue where
  rule : Rule
  file : String
  position : Position
  message : String
  deriving DecidableEq, Repr

namespace Issue

def format (issue : Issue) : String :=
  issue.file ++ ":" ++ issue.position.format ++ ": [" ++ issue.rule.key ++ "] " ++ issue.message

def sort (issues : List Issue) : List Issue :=
  issues.mergeSort fun first second => first.position.atOrBefore second.position

end Issue

namespace Pass

def issues (pass : Pass Mark) (file : String) : List Issue :=
  pass.findings.map fun finding =>
    ⟨pass.check.rule, file, finding.anchor.span.start, finding.message⟩

end Pass

def issuesOf (file : String) (passes : List (Pass Mark)) : List Issue :=
  Issue.sort (passes.flatMap (·.issues file))

namespace SourceUnit

def issues (unit : SourceUnit Mark) (checks : List Check) : Except Violation (List Issue) := do
  return issuesOf unit.file (← unit.scan checks)

end SourceUnit

end TokenSpacing
