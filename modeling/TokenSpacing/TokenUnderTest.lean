import TokenSpacing.Boundary
import TokenSpacing.Tree

/-!
Which token of a construct has its neighbourhood tested.

A tagged node has at most one token under test, found by its construct.  A token may
be a literal construct by its spelling and the node it hangs below.  Occurrences
that are exempt have no token under test and no literal construct.
-/

namespace TokenSpacing

variable {Mark : Type}

namespace Node

/-- The opening bracket of an array type.  Annotated dimensions are exempt: their
white space belongs to the annotation in front of the bracket. -/
def arrayTypeBracket? (node : Node Mark) (source : SourceText) :
    Except Violation (Option (Leaf Mark)) :=
  match node.token? "[" with
  | none => .ok none
  | some bracket =>
      if node.nodes.any (·.head.construct == some .annotationMark) then
        .ok none
      else do
        let offset ← source.offsetOf bracket.token.span.start
        return if source.touches offset .left .annotationMark then none else some bracket

def tokenUnderTest? (node : Node Mark) (source : SourceText) :
    Except Violation (Option (Leaf Mark)) :=
  match node.head.construct with
  | some .annotationMark => .ok (node.token? "@")
  | some .arrayAccess => .ok (node.token? "[")
  | some .arrayType => node.arrayTypeBracket? source
  | some .memberSelect => .ok (node.token? ".")
  | some .methodReference => .ok (node.token? "::")
  | some .newArray => .ok (node.token? "\x7b")
  | some .typeCast => .ok (node.token? ")")
  | some .labeledStatement => .ok (node.token? ":")
  | some .bitwiseComplement | some .logicalComplement | some .unaryPlus | some .unaryMinus
  | some .prefixIncrement | some .prefixDecrement | some .synchronizedStatement =>
      .ok node.toTree.firstToken?
  | some .postfixIncrement | some .postfixDecrement => .ok node.toTree.lastToken?
  | some .comma | some .semicolon | some .dot | some .ellipsis | some .genericStart
  | some .genericEnd | none => .error (.noTokenRule node.head.construct node.head.span)

def parenthesized (node : Node Mark) : List (Tree Mark) :=
  ((node.children.dropWhile (!·.isToken "(")).drop 1).takeWhile (!·.isToken ")")

def hasEmptyForHeader (node : Node Mark) : Bool :=
  node.head.type == "for_statement" && node.parenthesized.length == 2 &&
    node.parenthesized.all (·.isToken ";")

def castSpansLines (node : Node Mark) : Bool :=
  match node.token? "(", node.token? ")" with
  | some opening, some closing =>
      opening.token.span.start.line != closing.token.span.start.line
  | _, _ => false

def isGeneric (node : Node Mark) : Bool :=
  node.head.type == "type_arguments" || node.head.type == "type_parameters"

/-- Whether a node lists members directly.  A stray semicolon among them has no node
of its own. -/
def listsMembers (node : Node Mark) : Bool :=
  ["program", "class_body", "interface_body", "enum_body", "enum_body_declarations",
   "annotation_type_body"].contains node.head.type

end Node

def inEmptyForHeader (parent : Option (Node Mark)) : Bool :=
  parent.any Node.hasEmptyForHeader

/-- The literal construct of a token below `parent`, or `none` if it is no literal
construct or an exempt one.  Angle brackets of comparisons share the spelling of
generic ones, so only the node above tells them apart. -/
def literalConstruct? (parent : Option (Node Mark)) (token : Token) : Option Construct :=
  match Construct.ofLiteral? token.text with
  | none => none
  | some .genericStart => if parent.any Node.isGeneric then some .genericStart else none
  | some .genericEnd => if parent.any Node.isGeneric then some .genericEnd else none
  | some .semicolon => if inEmptyForHeader parent then none else some .semicolon
  | some construct => some construct

end TokenSpacing
