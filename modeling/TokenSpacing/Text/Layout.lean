/-!
Classes of characters, and the pieces of a text that they separate.

`isBlank` is the ASCII class that token boundaries are tested with, `isSpace` the
Unicode class that comments and settings are trimmed with, and `isLineBreak` holds
every character that ends a line in Java's sense.  Source lines are what line feeds
separate.  Text that is only laid out is cut after every character that may end a line, a
carriage return and its line feed taken as one.
-/

namespace TokenSpacing.Text

def inRanges (ranges : List (Nat × Nat)) (c : Char) : Bool :=
  ranges.any fun (first, last) => first ≤ c.toNat && c.toNat ≤ last

def isBlank (c : Char) : Bool :=
  c == ' ' || (0x09 ≤ c.toNat && c.toNat ≤ 0x0d)

def isWord (c : Char) : Bool :=
  c.isAlphanum || c == '_'

def isLineBreak (c : Char) : Bool :=
  (0x0a ≤ c.toNat && c.toNat ≤ 0x0d) || c.toNat == 0x85 || c.toNat == 0x2028 || c.toNat == 0x2029

def isSpace (c : Char) : Bool :=
  let n := c.toNat
  (0x09 ≤ n && n ≤ 0x0d) || (0x1c ≤ n && n ≤ 0x20) || n == 0x85 || n == 0xa0 || n == 0x1680 ||
    (0x2000 ≤ n && n ≤ 0x200a) || n == 0x2028 || n == 0x2029 || n == 0x202f || n == 0x205f ||
    n == 0x3000

def trim (outer : Char → Bool) (text : List Char) : List Char :=
  ((text.dropWhile outer).reverse.dropWhile outer).reverse

def strip (text : List Char) : List Char :=
  trim isSpace text

/-! ## Pieces -/

/-- The pieces between the occurrences of `mark`; a text without any is one piece. -/
def splitAt (mark : Char) : List Char → List (List Char)
  | [] => [[]]
  | c :: rest =>
      if c == mark then [] :: splitAt mark rest
      else match splitAt mark rest with
        | [] => [[c]]
        | piece :: pieces => (c :: piece) :: pieces

def splitLines (text : List Char) : List (List Char) :=
  splitAt '\n' text

def endsLine (c : Char) : Bool :=
  isLineBreak c || (0x1c ≤ c.toNat && c.toNat ≤ 0x1e)

/-- The lines of a text that any line end closes; none stands after the last line end. -/
def closedLines : List Char → List (List Char)
  | [] => []
  | '\r' :: '\n' :: rest => [] :: closedLines rest
  | c :: rest =>
      if endsLine c then [] :: closedLines rest
      else match closedLines rest with
        | [] => [[c]]
        | line :: lines => (c :: line) :: lines

end TokenSpacing.Text
