import TokenSpacing.Corpus.Template
import TokenSpacing.SourceText
import TokenSpacing.Text.Layout

/-!
Random Java sources with gaps around the tokens that the rules look at.
-/

namespace TokenSpacing.Corpus

variable {Source : Type}

/-! ## Templates -/

def statementTemplates : List Template :=
  [[.text "int ", .chosen 0, .text " = ~", .gap, .chosen 1, .text ";"],
   [.text "boolean ", .chosen 0, .text " = !", .gap, .chosen 1, .text ";"],
   [.text "int ", .chosen 0, .text " = -", .gap, .chosen 1, .text " + +", .gap, .chosen 1,
    .text ";"],
   [.text "++", .gap, .chosen 0, .text ";"],
   [.text "--", .gap, .chosen 0, .text ";"],
   [.chosen 0, .gap, .text "++;"],
   [.chosen 0, .gap, .text "--;"],
   [.text "int ", .chosen 0, .text " = ", .chosen 1, .gap, .text "[0]", .gap, .text ";"],
   [.text "String ", .chosen 0, .text " = ", .chosen 1, .gap, .text ".", .gap,
    .text "toString()", .gap, .text ";"],
   [.text "Runnable ", .chosen 0, .text " = this", .gap, .text "::", .gap, .chosen 1, .text ";"],
   [.text "Object ", .chosen 0, .text " = (Object)", .gap, .chosen 1, .text ";"],
   [.text "synchronized", .gap, .text "(this) \x7b ", .chosen 0, .text "()", .gap,
    .text "; \x7d"],
   [.chosen 0, .gap, .text ": for (", .gap, .text ";", .gap, .text ";", .gap,
    .text ") \x7b break ", .chosen 0, .text "; \x7d"],
   [.text "for (int ", .chosen 0, .text " = 0", .gap, .text "; ", .chosen 0, .text " < 10", .gap,
    .text "; ", .chosen 0, .text "++) \x7b \x7d"],
   [.chosen 0, .text "(", .chosen 1, .gap, .text ", 1", .gap, .text ", \"ü\"", .gap, .text ");"],
   [.text "java.util.List", .gap, .text "<String", .gap, .text "> ", .chosen 0,
    .text " = null;"],
   [.text "int[] ", .chosen 0, .text " = new int[] \x7b", .gap, .text "1, 2\x7d;"],
   [.text "String ", .chosen 0, .text " = \"ä\" + ~", .gap, .chosen 1, .text ";"]]

/-- Fields with one identifier, each with the chance in tenths that it or one before it is
taken. -/
def fieldTemplates : List (Nat × Template) :=
  [(3, [.text "int", .gap, .text "[]", .gap, .text "[] ", .chosen 0,
        .text " = new int[1][2];"]),
   (6, [.text "int[] ", .chosen 0, .text " = \x7b", .gap, .text "1", .gap, .text ", 2", .gap,
        .text "\x7d;"]),
   (8, [.text "java.util.Map", .gap, .text "<String", .gap, .text ", java.util.List<Integer", .gap,
        .text ">", .gap, .text "> ", .chosen 0, .text ";"])]

def otherFieldTemplate : Template :=
  [.text "@SuppressWarnings(\"x\") private String ", .chosen 0, .text " = \"éè\" + ", .fresh, .gap,
   .text ".", .gap, .fresh, .text ";"]

def parameterTemplate : Template :=
  [.text "int ", .fresh, .gap, .text ", String", .gap, .text "...", .gap, .fresh]

def typeParameterTemplate : Template :=
  [.gap, .text "<T", .gap, .text ", U", .gap, .text ">"]

def qualifierTemplate : Template :=
  [.gap, .text ".", .gap, .fresh]

def importTemplate (wildcard : Bool) : Template :=
  [.text "import java.", .gap, .text "util.", .freshCapital,
   .text (if wildcard then ".*;" else ";")]

def annotationTemplate : Template :=
  [.text "@", .gap, .text "Deprecated"]

/-! ## Text by lines -/

def joinLines (lines : List (List Char)) : List Char :=
  TokenSpacing.joinLines ['\n'] lines

def indent (text : List Char) : List Char :=
  joinLines ((Text.closedLines text).map fun line =>
    if line.isEmpty then line else ' ' :: ' ' :: line)

/-! ## Sources -/

def fieldTemplate (fraction : Nat) : Template :=
  ((fieldTemplates.find? fun (count, _) => fraction < Draws.tenths count).map Prod.snd).getD
    otherFieldTemplate

def field (draws : Draws Source) : Gen Source (List Char) := do
  let fraction ← draws.fraction
  let name ← identifier draws
  Template.render draws [name] (fieldTemplate fraction)

def statement (draws : Draws Source) : Gen Source (List Char) := do
  let first ← identifier draws
  let second ← identifier draws
  let template ← draws.pick statementTemplates []
  Template.render draws [first, second] template

def optional (draws : Draws Source) (count : Nat) (template : Template) :
    Gen Source (List Char) := do
  if ← draws.chance count then Template.render draws [] template else return []

def method (draws : Draws Source) : Gen Source (List Char) := do
  let name ← identifier draws
  let parameters ← optional draws 5 parameterTemplate
  let count ← draws.between 1 10
  let statements ← Draws.repeated (statement draws) count
  return joinLines
    (("void ".toList ++ name ++ '(' :: parameters ++ ") \x7b".toList) ::
      statements.map indent ++ [['\x7d']])

def ifAny (text : List Char) : List (List Char) :=
  if text.isEmpty then [] else [text]

def classBody (draws : Draws Source) : Gen Source (List (List Char)) := do
  let fieldCount ← draws.between 0 3
  let fields ← Draws.repeated (field draws) fieldCount
  let methodCount ← draws.between 1 3
  let methods ← Draws.repeated (method draws) methodCount
  return fields.map (' ' :: ' ' :: ·) ++ methods.map indent

def javaClass (draws : Draws Source) : Gen Source (List Char) := do
  let name ← identifier draws
  let mark ← optional draws 4 annotationTemplate
  let typeParameters ← optional draws 3 typeParameterTemplate
  let body ← classBody draws
  return joinLines (ifAny mark ++
    ("class ".toList ++ capitalize name ++ typeParameters ++ " \x7b".toList) ::
      body ++ [['\x7d']])

def packageLines (draws : Draws Source) : Gen Source (List (List Char)) := do
  if ← draws.chance 7 then
    let name ← identifier draws
    let count ← draws.between 0 3
    let qualifiers ← Draws.repeated (Template.render draws [] qualifierTemplate) count
    return ["package ".toList ++ name ++ qualifiers.flatten ++ [';'], []]
  else
    return []

def importLine (draws : Draws Source) : Gen Source (List Char) := do
  let wildcard ← draws.chance 3
  Template.render draws [] (importTemplate wildcard)

def importLines (draws : Draws Source) : Gen Source (List (List Char)) := do
  let count ← draws.between 0 3
  let imports ← Draws.repeated (importLine draws) count
  return if imports.isEmpty then [] else imports ++ [[]]

/-- One source.  Some have a carriage return in front of every line feed. -/
def source (draws : Draws Source) : Gen Source (List Char) := do
  let package ← packageLines draws
  let imports ← importLines draws
  let count ← draws.between 1 2
  let classes ← Draws.repeated (javaClass draws) count
  let text := joinLines (package ++ imports ++ classes ++ [[]])
  let carriageReturns ← draws.chance 1
  return if carriageReturns then
      TokenSpacing.joinLines ['\r', '\n'] (Text.splitLines text)
    else text

def sourcesFrom (draws : Draws Source) (count : Nat) : Gen Source (List (List Char)) :=
  Draws.repeated (source draws) count

def sources (seed : Int) (count : Nat) : List (List Char) :=
  (sourcesFrom Twister.draws count (Twister.ofSeed seed)).1

/-! ## Files -/

def paddedNumber (number : Nat) : String :=
  let digits := toString number
  String.ofList (List.replicate (6 - digits.length) '0') ++ digits

def fileName (number : Nat) : String :=
  "Case" ++ paddedNumber number ++ ".java"

def files (seed : Int) (count : Nat) : List (String × List Char) :=
  (sources seed count).zipIdx.map fun (text, number) => (fileName number, text)

end TokenSpacing.Corpus
