import TokenSpacing.Files.Workspace
import TokenSpacing.Fixture.Expectation

/-!
Verification of a check against the expectations of a fixture.

Every finding has to be expected and every expectation has to be met.  Expectations
with a message choose first, so that one without cannot take their finding.
-/

namespace TokenSpacing

structure Observation where
  line : Int
  message : String
  deriving DecidableEq, Repr

namespace Observation

def atOrBefore (first second : Observation) : Bool :=
  first.line < second.line || (first.line == second.line && !(second.message < first.message))

def sort (observations : List Observation) : List Observation :=
  observations.mergeSort atOrBefore

end Observation

namespace Expectation

def accepts (expectation : Expectation) (observation : Observation) : Bool :=
  expectation.line == observation.line &&
    (expectation.message.isNone || expectation.message == some observation.message)

def take? (expectation : Expectation) : List Observation → Option (List Observation)
  | [] => none
  | first :: rest =>
      if expectation.accepts first then some rest
      else (expectation.take? rest).map (first :: ·)

/-- The expectations that find no observation, and the observations that are left. -/
def settle : List Expectation → List Observation → List Expectation × List Observation
  | [], pool => ([], pool)
  | expectation :: rest, pool =>
      match expectation.take? pool with
      | some remaining => settle rest remaining
      | none =>
          let (missing, left) := settle rest pool
          (expectation :: missing, left)

def exactFirst (expectations : List Expectation) : List Expectation :=
  expectations.filter (·.message.isSome) ++ expectations.filter (·.message.isNone)

def sortByLine (expectations : List Expectation) : List Expectation :=
  expectations.mergeSort fun first second => first.line ≤ second.line

end Expectation

structure Mismatch where
  file : String
  rule : Rule
  missing : List Expectation
  unexpected : List Observation
  deriving DecidableEq, Repr

namespace Mismatch

def showMissing (expectation : Expectation) : String :=
  let message := expectation.message.getD ""
  "  missing    line " ++ toString expectation.line ++ ": " ++
    (if message.isEmpty then "<any message>" else message)

def showUnexpected (observation : Observation) : String :=
  "  unexpected line " ++ toString observation.line ++ ": " ++ observation.message

def message (mismatch : Mismatch) : String :=
  "\n".intercalate
    ((mismatch.file ++ ": " ++ mismatch.rule.key ++
        " does not match its Noncompliant comments") ::
      mismatch.missing.map showMissing ++ mismatch.unexpected.map showUnexpected)

end Mismatch

/-- Compares observations with expectations.  A match returns the observations in order. -/
def compareFixture (file : String) (rule : Rule) (expected : List Expectation)
    (observed : List Observation) : Except Mismatch (List Observation) :=
  let observed := Observation.sort observed
  match Expectation.settle (Expectation.exactFirst expected) observed with
  | ([], []) => .ok observed
  | (missing, unexpected) => .error ⟨file, rule, Expectation.sortByLine missing, unexpected⟩

inductive VerificationFailure where
  | run (failure : Failure)
  | expectations (fault : ExpectationFault)
  | mismatch (mismatch : Mismatch)
  | undecodable
  deriving DecidableEq, Repr

namespace Pass

def observations {Mark : Type} (pass : Pass Mark) : List Observation :=
  pass.findings.map fun finding => ⟨finding.anchor.span.start.line, finding.message⟩

end Pass

namespace Workspace

def fixtureName (name : Option String) (otherwise : String) : String :=
  (name.filter (!·.isEmpty)).getD otherwise

def verifyNamed (workspace : Workspace) (check : Check) (file : String) (text : List Char) :
    Except VerificationFailure (List Observation) :=
  match (workspace.parseText file text).outcome with
  | .error failure => .error (.run failure)
  | .ok unit =>
      match unit.scan [check], Expectation.ofText text with
      | .error violation, _ => .error (.run (.violation violation))
      | _, .error fault => .error (.expectations fault)
      | .ok passes, .ok expected =>
          match compareFixture file check.rule expected (passes.flatMap Pass.observations) with
          | .ok observed => .ok observed
          | .error mismatch => .error (.mismatch mismatch)

def verifyText (workspace : Workspace) (check : Check) (name : Option String)
    (text : List Char) : Except VerificationFailure (List Observation) :=
  workspace.verifyNamed check (fixtureName name "<memory>") text

def unifyLineEnds : List Char → List Char
  | '\r' :: '\n' :: rest => '\n' :: unifyLineEnds rest
  | '\r' :: rest => '\n' :: unifyLineEnds rest
  | c :: rest => c :: unifyLineEnds rest
  | [] => []

def verifyFile (workspace : Workspace) (check : Check) (name : Option String) (path : Path) :
    Except VerificationFailure (List Observation) :=
  match workspace.files.readAt workspace.current path with
  | .error fault => .error (.run (.unreadable path.text fault))
  | .ok bytes =>
      match Text.decode? bytes with
      | none => .error .undecodable
      | some text =>
          workspace.verifyNamed check (fixtureName name path.text) (unifyLineEnds text)

end Workspace

end TokenSpacing
