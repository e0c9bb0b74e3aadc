import TokenSpacing.Rule

/-!
The settings of a rule: one switch for line breaks, and one for each governed
construct.
-/

namespace TokenSpacing

inductive Field where
  | allowLineBreaks
  | construct (construct : Construct)
  deriving DecidableEq, Repr

namespace Field

def words : Field → List String
  | allowLineBreaks => ["allow", "line", "breaks"]
  | construct .annotationMark => ["annotation"]
  | construct .arrayAccess => ["array", "access", "expression"]
  | construct .arrayType => ["array", "type"]
  | construct .bitwiseComplement => ["bitwise", "complement"]
  | construct .logicalComplement => ["logical", "complement"]
  | construct .memberSelect => ["member", "select"]
  | construct .methodReference => ["method", "reference"]
  | construct .newArray => ["new", "array"]
  | construct .prefixIncrement => ["prefix", "increment"]
  | construct .prefixDecrement => ["prefix", "decrement"]
  | construct .postfixIncrement => ["postfix", "increment"]
  | construct .postfixDecrement => ["postfix", "decrement"]
  | construct .synchronizedStatement => ["synchronized", "statement"]
  | construct .typeCast => ["type", "cast"]
  | construct .unaryPlus => ["unary", "plus"]
  | construct .unaryMinus => ["unary", "minus"]
  | construct .labeledStatement => ["labeled", "statement"]
  | construct .comma => ["comma"]
  | construct .semicolon => ["semicolon"]
  | construct .dot => ["dot"]
  | construct .ellipsis => ["ellipsis"]
  | construct .genericStart => ["generic", "start"]
  | construct .genericEnd => ["generic", "end"]

def capitalize (word : String) : String :=
  match word.toList with
  | [] => ""
  | first :: rest => String.ofList (first.toUpper :: rest)

def snakeName (field : Field) : String :=
  "_".intercalate field.words

def camelName (field : Field) : String :=
  match field.words with
  | [] => ""
  | first :: rest => first ++ String.join (rest.map capitalize)

end Field

namespace Rule

def fields (rule : Rule) : List Field :=
  .allowLineBreaks :: rule.constructs.map .construct

def offByDefault : Rule → List Construct
  | after => [.methodReference, .synchronizedStatement, .typeCast]
  | before => [.dot, .genericStart, .genericEnd]

end Rule

structure Settings where
  value : Field → Bool

namespace Settings

def default (rule : Rule) : Settings where
  value
    | .allowLineBreaks => true
    | .construct construct => !rule.offByDefault.contains construct

def set (settings : Settings) (field : Field) (value : Bool) : Settings where
  value other := if other = field then value else settings.value other

def showBool : Bool → String
  | true => "True"
  | false => "False"

def describe (settings : Settings) (rule : Rule) : String :=
  rule.settingsName ++ "(" ++
    ", ".intercalate (rule.fields.map fun field =>
      field.snakeName ++ "=" ++ showBool (settings.value field)) ++ ")"

end Settings

structure Config where
  settings : Rule → Settings

namespace Config

def default : Config where
  settings := Settings.default

end Config

end TokenSpacing
