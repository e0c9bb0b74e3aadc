import TokenSpacing.SourceText
import TokenSpacing.Text.Layout

/-!
Tests of the text that touches a token boundary.

A pattern is tested exactly at the boundary: to the right a match has to start
there, to the left it has to end there.  The left side is read backwards, nearest
character first.
-/

namespace TokenSpacing

inductive Side where
  | left
  | right
  deriving DecidableEq, Repr

inductive Pattern where
  | whitespace
  | lineBreak
  | annotationMark
  deriving DecidableEq, Repr

namespace Pattern

/-- Whether a text starts with a match.  All that may follow the first character of a
match is optional, so that character decides. -/
def opens : Pattern → List Char → Bool
  | _, [] => false
  | whitespace, c :: _ => Text.isBlank c
  | lineBreak, c :: _ => Text.isLineBreak c
  | annotationMark, c :: _ => c == '@'

def closesLineBreak : List Char → Bool
  | [] => false
  | c :: rest => Text.isLineBreak c || (Text.isBlank c && closesLineBreak rest)

def closes : Pattern → List Char → Bool
  | whitespace, backwards => opens whitespace backwards
  | lineBreak, backwards => closesLineBreak backwards
  | annotationMark, backwards =>
      opens annotationMark ((backwards.dropWhile Text.isBlank).dropWhile Text.isWord)

end Pattern

namespace SourceText

def clamp (source : SourceText) (offset : Int) : Nat :=
  min offset.toNat source.text.length

def touches (source : SourceText) (offset : Nat) (side : Side) (pattern : Pattern) : Bool :=
  match side with
  | .left => pattern.closes (source.leftOf offset)
  | .right => pattern.opens (source.rightOf offset)

def spacedBefore (source : SourceText) (position : Position) (allowLineBreaks : Bool) :
    Except Violation Bool := do
  let offset ← source.offsetOf position
  return if source.touches offset .left .lineBreak then !allowLineBreaks
    else source.touches offset .left .whitespace

/-- Whether white space directly follows a position.  A boundary that is `broken`
counts as a line break whatever follows. -/
def spacedAfter (source : SourceText) (position : Position) (allowLineBreaks broken : Bool) :
    Except Violation Bool := do
  let offset ← source.offsetOf position
  return if broken || source.touches offset .right .lineBreak then !allowLineBreaks
    else source.touches offset .right .whitespace

end SourceText

end TokenSpacing
