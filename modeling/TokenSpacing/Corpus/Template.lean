import TokenSpacing.Corpus.Draws

/-!
Templates of Java text with gaps and identifiers in them.

A gap is nothing, a blank or a line break.  Identifiers are new ones, or those that were
chosen for a whole template.
-/

namespace TokenSpacing.Corpus

variable {Source : Type}

/-! ## Identifiers and gaps -/

def smallLetters : List Char := "abcdefghijklmnopqrstuvwxyz".toList

def capitalLetters : List Char := "ABCDEFGHIJKLMNOPQRSTUVWXYZ".toList

def letters : List Char := smallLetters ++ capitalLetters ++ "0123456789".toList

def keywords : List String :=
  ["abstract", "assert", "boolean", "break", "byte", "case", "catch", "char", "class",
   "const", "continue", "default", "do", "double", "else", "enum", "exports", "extends",
   "final", "finally", "float", "for", "goto", "if", "implements", "import", "instanceof",
   "int", "interface", "long", "module", "native", "new", "non", "null", "open", "opens",
   "package", "permits", "private", "protected", "provides", "public", "record", "requires",
   "return", "sealed", "short", "static", "strictfp", "super", "switch", "synchronized",
   "this", "throw", "throws", "to", "transient", "transitive", "true", "false", "try",
   "uses", "var", "void", "volatile", "when", "while", "with", "yield"]

def avoidKeyword (word : List Char) : List Char :=
  if keywords.contains (String.ofList word) then word ++ ['_'] else word

def identifier (draws : Draws Source) : Gen Source (List Char) := do
  let first ← draws.pick smallLetters 'a'
  let count ← draws.between 0 6
  let rest ← Draws.repeated (draws.pick letters 'a') count
  return avoidKeyword (first :: rest)

def capitalize : List Char → List Char
  | [] => []
  | first :: rest => first.toUpper :: rest.map Char.toLower

def gaps : List (List Char) := [[], [' '], ['\n', '\t', '\t']]

def gap (draws : Draws Source) : Gen Source (List Char) :=
  draws.pick gaps []

/-! ## Templates -/

inductive Piece where
  | text (text : String)
  | gap
  | fresh
  | freshCapital
  | chosen (number : Nat)
  deriving DecidableEq, Repr

abbrev Template := List Piece

namespace Piece

def render (draws : Draws Source) (names : List (List Char)) : Piece → Gen Source (List Char)
  | text fixed => return fixed.toList
  | gap => Corpus.gap draws
  | fresh => identifier draws
  | freshCapital => do return capitalize (← identifier draws)
  | chosen number => return names.getD number []

end Piece

namespace Template

/-- The text of a template, its choices made from left to right. -/
def render (draws : Draws Source) (names : List (List Char)) :
    Template → Gen Source (List Char)
  | [] => return []
  | piece :: rest => do
      let first ← piece.render draws names
      return first ++ (← render draws names rest)

end Template

end TokenSpacing.Corpus
