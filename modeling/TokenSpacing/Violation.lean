import TokenSpacing.Construct
import TokenSpacing.Position

/-!
Disagreements between a tree and the source text it claims to describe, and reasons why a
file is not accepted as Java.

A violation ends the scan of a file; it is never reported as a finding.
-/

namespace TokenSpacing

inductive Violation where
  | lineOutside (line : Int) (lineCount : Nat)
  | columnOutside (column line : Int) (lineLength : Nat)
  | noTokenRule (construct : Option Construct) (span : Span)
  | notGoverned (construct : Construct)
  deriving DecidableEq, Repr

namespace Violation

def text : Violation → String
  | lineOutside line lineCount =>
      "line " ++ toString line ++ " is outside the source (" ++ toString lineCount ++ " lines)"
  | columnOutside column line lineLength =>
      "column " ++ toString column ++ " is outside line " ++ toString line ++ " (" ++
        toString lineLength ++ " characters)"
  | noTokenRule construct _ =>
      "no token rule for construct kind " ++ Construct.describe? construct
  | notGoverned construct =>
      "construct kind " ++ construct.describe ++ " is not governed by this policy"

def span? : Violation → Option Span
  | noTokenRule _ span => some span
  | _ => none

def locate (span? : Option Span) (text : String) : String :=
  match span? with
  | none => text
  | some span => span.format ++ ": " ++ text

def message (violation : Violation) : String :=
  locate violation.span? violation.text

end Violation

/-! ## Files that are no Java -/

inductive ParseFault where
  | unexpected
  | missing (type : String)
  | notUtf8
  deriving DecidableEq, Repr

namespace ParseFault

def text : ParseFault → String
  | unexpected => "syntax error"
  | missing type => "missing " ++ type
  | notUtf8 => "not valid UTF-8"

def hint : ParseFault → String
  | unexpected | missing _ => "the file must be valid Java before whitespace can be checked"
  | notUtf8 => "save the file as UTF-8"

end ParseFault

structure ParseError where
  span : Span
  fault : ParseFault
  deriving DecidableEq, Repr

namespace ParseError

/-- A message with a hint on a line of its own, unless the hint is empty or missing. -/
def withHint (text : String) : Option String → String
  | none => text
  | some hint => if hint.isEmpty then text else text ++ "\nhint: " ++ hint

def message (error : ParseError) : String :=
  withHint (Violation.locate (some error.span) error.fault.text) (some error.fault.hint)

end ParseError

end TokenSpacing
