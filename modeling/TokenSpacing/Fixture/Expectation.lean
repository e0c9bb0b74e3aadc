import TokenSpacing.Text.Layout
import TokenSpacing.Text.Numeral

/-!
Expectations in the comments of a fixture.

A line that should be reported carries a comment `// Noncompliant`.  A signed number
after an at sign moves the expectation to another line, and a text in doubled braces
is the message that is expected.
-/

namespace TokenSpacing

structure Expectation where
  line : Int
  message : Option String
  deriving DecidableEq, Repr

inductive ExpectationFault where
  | longShift
  deriving DecidableEq, Repr

namespace Expectation

def dropWord? : List Char → List Char → Option (List Char)
  | [], text => some text
  | _ :: _, [] => none
  | expected :: word, c :: rest => if c == expected then dropWord? word rest else none

def marker : List Char := "Noncompliant".toList

def afterMarker? : List Char → Option (List Char)
  | '/' :: '/' :: rest => dropWord? marker (rest.dropWhile Text.isSpace)
  | _ => none

def findComment? : List Char → Option (List Char)
  | [] => none
  | c :: rest =>
      match afterMarker? (c :: rest) with
      | some after => some after
      | none => findComment? rest

/-- The digits of a line shift with their sign, and the text after them. -/
def splitShift (text : List Char) : List Char × List Char :=
  match text with
  | '@' :: sign :: rest =>
      let digits := rest.takeWhile Text.isDigit
      if (sign == '+' || sign == '-') && !digits.isEmpty then
        (sign :: digits, rest.dropWhile Text.isDigit)
      else
        ([], text)
  | _ => ([], text)

def beforeClosing? : List Char → Option (List Char)
  | [] => none
  | '\x7d' :: '\x7d' :: _ => some []
  | c :: rest => (beforeClosing? rest).map (c :: ·)

def message? (text : List Char) : Option String :=
  match text.dropWhile Text.isSpace with
  | '\x7b' :: '\x7b' :: rest => (beforeClosing? rest).map String.ofList
  | _ => none

def ofLine (number : Nat) (line : List Char) : Except ExpectationFault (Option Expectation) :=
  match findComment? line with
  | none => .ok none
  | some after =>
      let (shift, rest) := splitShift after
      if Text.digitLimit + 1 < shift.length then .error .longShift
      else .ok (some ⟨number + Text.signedValue shift, message? rest⟩)

def ofLines (number : Nat) : List (List Char) → Except ExpectationFault (List Expectation)
  | [] => .ok []
  | line :: rest => do
      let found ← ofLine number line
      return found.toList ++ (← ofLines (number + 1) rest)

def ofText (text : List Char) : Except ExpectationFault (List Expectation) :=
  ofLines 1 (Text.splitLines text)

end Expectation

end TokenSpacing
