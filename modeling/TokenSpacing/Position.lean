/-!
Positions and spans in a text file.

Lines and columns are counted from one, and columns count characters.  The stop
of a span is exclusive: it names the column just past the last character.
-/

namespace TokenSpacing

structure Position where
  line : Int
  column : Int
  deriving DecidableEq, Repr

namespace Position

def before (first second : Position) : Bool :=
  first.line < second.line || (first.line == second.line && first.column < second.column)

def atOrBefore (first second : Position) : Bool :=
  !second.before first

def format (position : Position) : String :=
  toString position.line ++ ":" ++ toString position.column

def latest (first : Position) (rest : List Position) : Position :=
  rest.foldl (fun best position => if best.before position then position else best) first

theorem before_iff (first second : Position) :
    first.before second = true ↔
      first.line < second.line ∨
        (first.line = second.line ∧ first.column < second.column) := by
  simp [before]

theorem atOrBefore_iff (first second : Position) :
    first.atOrBefore second = true ↔
      first.line < second.line ∨
        (first.line = second.line ∧ first.column ≤ second.column) := by
  simp only [atOrBefore, before, Bool.not_eq_true', Bool.or_eq_false_iff,
    Bool.and_eq_false_iff, decide_eq_false_iff_not, beq_eq_false_iff_ne]
  omega

end Position

structure Span where
  file : String
  start : Position
  stop : Position
  deriving DecidableEq, Repr

namespace Span

def format (span : Span) : String :=
  span.file ++ ":" ++ span.start.format

end Span

end TokenSpacing
