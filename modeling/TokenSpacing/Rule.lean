import TokenSpacing.Construct

/-!
The two rules: no white space after a token, and no white space before it.

Each rule governs a list of constructs.  A governed construct has a label, which
messages quote, and a field of the settings that switches it on or off.
-/

namespace TokenSpacing

inductive Rule where
  | after
  | before
  deriving DecidableEq, Repr

namespace Rule

def all : List Rule :=
  [after, before]

theorem mem_all (rule : Rule) : rule ∈ all := by
  cases rule <;> decide

def key : Rule → String
  | after => "no-whitespace-after"
  | before => "no-whitespace-before"

def sectionName : Rule → String
  | after => "after"
  | before => "before"

def checkName : Rule → String
  | after => "NoWhitespaceAfterCheck"
  | before => "NoWhitespaceBeforeCheck"

def settingsName : Rule → String
  | after => "NoWhitespaceAfterSettings"
  | before => "NoWhitespaceBeforeSettings"

def description : Rule → String
  | after =>
      "Checks that there is no whitespace after a token. " ++
        "With allow_line_breaks, a token may still end its line."
  | before =>
      "Checks that there is no whitespace before a token. " ++
        "With allow_line_breaks, a token may still start its line."

def ofKey? (text : String) : Option Rule :=
  all.find? (·.key == text)

def ofSectionName? (text : String) : Option Rule :=
  all.find? (·.sectionName == text)

def labels : Rule → List (Construct × String)
  | after =>
      [(.annotationMark, "@"), (.arrayAccess, "ARRAY_ACCESS_EXPRESSION"),
       (.arrayType, "ARRAY_TYPE"), (.bitwiseComplement, "~"), (.logicalComplement, "!"),
       (.memberSelect, "."), (.methodReference, "::"), (.newArray, "\x7b"),
       (.prefixDecrement, "--"), (.prefixIncrement, "++"),
       (.synchronizedStatement, "synchronized"), (.typeCast, ")"), (.unaryMinus, "-"),
       (.unaryPlus, "+")]
  | before =>
      [(.comma, ","), (.semicolon, ";"), (.dot, "."), (.ellipsis, "..."), (.genericStart, "<"),
       (.genericEnd, ">"), (.labeledStatement, ":"), (.methodReference, "::"),
       (.postfixDecrement, "--"), (.postfixIncrement, "++")]

def constructs (rule : Rule) : List Construct :=
  rule.labels.map Prod.fst

def label? (rule : Rule) (construct : Construct) : Option String :=
  rule.labels.lookup construct

def visitedConstructs (rule : Rule) : List Construct :=
  rule.constructs.filter (!·.isLiteral)

def visitsTokens : Rule → Bool
  | after => false
  | before => true

/-- Whether a construct's bracket is tested on its left: white space there follows the
token in front of the bracket. -/
def isLeading (construct : Construct) : Bool :=
  construct == .arrayAccess || construct == .arrayType

def message (rule : Rule) (label : String) : String :=
  match rule with
  | after => "'" ++ label ++ "' is followed by whitespace."
  | before => "'" ++ label ++ "' is preceded by whitespace."

end Rule

end TokenSpacing
