import TokenSpacing.Text.Quoted

/-!
The constructs of Java whose tokens are tested.

Structured constructs are tagged on tree nodes; literal constructs are recognised by
the spelling of a token.
-/

namespace TokenSpacing

inductive Construct where
  | annotationMark
  | arrayAccess
  | arrayType
  | bitwiseComplement
  | logicalComplement
  | memberSelect
  | methodReference
  | newArray
  | prefixIncrement
  | prefixDecrement
  | postfixIncrement
  | postfixDecrement
  | synchronizedStatement
  | typeCast
  | unaryPlus
  | unaryMinus
  | labeledStatement
  | comma
  | semicolon
  | dot
  | ellipsis
  | genericStart
  | genericEnd
  deriving DecidableEq, Repr

namespace Construct

def all : List Construct :=
  [annotationMark, arrayAccess, arrayType, bitwiseComplement, logicalComplement, memberSelect,
   methodReference, newArray, prefixIncrement, prefixDecrement, postfixIncrement,
   postfixDecrement, synchronizedStatement, typeCast, unaryPlus, unaryMinus, labeledStatement,
   comma, semicolon, dot, ellipsis, genericStart, genericEnd]

def name : Construct → String
  | annotationMark => "ANNOTATION"
  | arrayAccess => "ARRAY_ACCESS_EXPRESSION"
  | arrayType => "ARRAY_TYPE"
  | bitwiseComplement => "BITWISE_COMPLEMENT"
  | logicalComplement => "LOGICAL_COMPLEMENT"
  | memberSelect => "MEMBER_SELECT"
  | methodReference => "METHOD_REFERENCE"
  | newArray => "NEW_ARRAY"
  | prefixIncrement => "PREFIX_INCREMENT"
  | prefixDecrement => "PREFIX_DECREMENT"
  | postfixIncrement => "POSTFIX_INCREMENT"
  | postfixDecrement => "POSTFIX_DECREMENT"
  | synchronizedStatement => "SYNCHRONIZED_STATEMENT"
  | typeCast => "TYPE_CAST"
  | unaryPlus => "UNARY_PLUS"
  | unaryMinus => "UNARY_MINUS"
  | labeledStatement => "LABELED_STATEMENT"
  | comma => "COMMA"
  | semicolon => "SEMICOLON"
  | dot => "DOT"
  | ellipsis => "ELLIPSIS"
  | genericStart => "GENERIC_START"
  | genericEnd => "GENERIC_END"

def literal? : Construct → Option String
  | comma => some ","
  | semicolon => some ";"
  | dot => some "."
  | ellipsis => some "..."
  | genericStart => some "<"
  | genericEnd => some ">"
  | _ => none

def isLiteral (construct : Construct) : Bool :=
  construct.literal?.isSome

def value (construct : Construct) : String :=
  construct.literal?.getD construct.name

def ofName? (text : String) : Option Construct :=
  all.find? (·.name == text)

def ofLiteral? (text : String) : Option Construct :=
  all.find? (·.literal? == some text)

def describe (construct : Construct) : String :=
  "<ConstructKind." ++ construct.name ++ ": " ++ Text.quote construct.value ++ ">"

def describe? : Option Construct → String
  | none => "None"
  | some construct => construct.describe

end Construct

end TokenSpacing
