import TokenSpacing.Violation

/-!
The text of a file, indexed by line.

The text is its lines joined by one separator.  A position inside a line, or just
past its end, has an offset: the number of characters before it.
-/

namespace TokenSpacing

def joinLines (separator : List Char) : List (List Char) → List Char
  | [] => []
  | [line] => line
  | line :: next :: rest => line ++ separator ++ joinLines separator (next :: rest)

def startsFrom (separatorLength : Nat) (offset : Nat) : List Nat → List Nat
  | [] => []
  | length :: rest => offset :: startsFrom separatorLength (offset + length + separatorLength) rest

structure SourceText where
  text : List Char
  lineStarts : List Nat
  lineLengths : List Nat
  deriving DecidableEq, Repr

namespace SourceText

/-- A text has at least one line: no lines at all are one empty line. -/
def atLeastOneLine : List (List Char) → List (List Char)
  | [] => [[]]
  | lines => lines

def ofLines (lines : List (List Char)) (separator : List Char) : SourceText :=
  let lines := atLeastOneLine lines
  let lengths := lines.map List.length
  { text := joinLines separator lines
    lineStarts := startsFrom separator.length 0 lengths
    lineLengths := lengths }

def lineCount (source : SourceText) : Nat :=
  source.lineStarts.length

def offsetOf (source : SourceText) (position : Position) : Except Violation Nat :=
  if position.line < 1 ∨ (source.lineCount : Int) < position.line then
    .error (.lineOutside position.line source.lineCount)
  else
    let index := (position.line - 1).toNat
    let length := source.lineLengths.getD index 0
    if position.column < 1 ∨ (length : Int) + 1 < position.column then
      .error (.columnOutside position.column position.line length)
    else
      .ok (source.lineStarts.getD index 0 + (position.column - 1).toNat)

def leftOf (source : SourceText) (offset : Nat) : List Char :=
  (source.text.take offset).reverse

def rightOf (source : SourceText) (offset : Nat) : List Char :=
  source.text.drop offset

end SourceText

end TokenSpacing
