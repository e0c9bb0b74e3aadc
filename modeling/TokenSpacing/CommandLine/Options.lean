import TokenSpacing.Text.Numeral
import TokenSpacing.Text.Quoted

/-!
Arguments of a command: options, their values, and operands.

Long options may be cut short where that is not ambiguous, and take a value after an
equals sign or from the next argument.  Short options without values may be written
together, also with an equals sign after the first.  Two dashes end the options, and
leave an option blank that has them as its value.  A command has at most one list of operands,
which must not be empty and must not be interrupted by options.
-/

namespace TokenSpacing.CommandLine

inductive Given (α : Type) where
  | value (value : α)
  | blank
  deriving DecidableEq, Repr

namespace Given

variable {α : Type}

def value? : Given α → Option α
  | .value found => some found
  | .blank => none

def values? (given : List (Given α)) : Option (List α) :=
  given.mapM value?

def leading : List (Given α) → List α
  | .value first :: rest => first :: leading rest
  | _ => []

end Given

inductive OptionAction (Request : Type) where
  | help
  | flag (apply : String → Request → Request)
  /-- An option with a value, which may be refused with a reason.  A blank is never
  refused. -/
  | value (read : String → Except String (Request → Request)) (blank : Request → Request)

def OptionAction.storing {Request α : Type} (read : String → Except String α)
    (store : Given α → Request → Request) : OptionAction Request :=
  .value (fun text => (read text).map fun value => store (.value value)) (store .blank)

structure OptionSpec (Request : Type) where
  names : List String
  action : OptionAction Request

structure Operands (Request : Type) where
  name : String
  apply : List String → Request → Request

structure Grammar (Request : Type) where
  options : List (OptionSpec Request)
  operands : Option (Operands Request)

inductive Stop where
  | help
  | wrongUse (text : String)
  deriving DecidableEq, Repr

variable {Request : Type}

namespace OptionSpec

def takesValue (spec : OptionSpec Request) : Bool :=
  match spec.action with
  | .value _ _ => true
  | _ => false

def refuse {α : Type} (spec : OptionSpec Request) (text : String) : Except Stop α :=
  .error (.wrongUse ("argument " ++ "/".intercalate spec.names ++ ": " ++ text))

def ignored {α : Type} (spec : OptionSpec Request) (value : List Char) : Except Stop α :=
  spec.refuse ("ignored explicit argument " ++ Text.quote (String.ofList value))

def perform (spec : OptionSpec Request) (name : String) (value : Option String)
    (request : Request) : Except Stop Request :=
  match spec.action, value with
  | .help, _ => .error .help
  | .flag apply, _ => .ok (apply name request)
  | .value read blank, some value =>
      if value == "--" then .ok (blank request)
      else
        match read value with
        | .ok change => .ok (change request)
        | .error text => spec.refuse text
  | .value _ _, none => spec.refuse "expected one argument"

end OptionSpec

/-- An argument by its look.  To an option is attached what follows its name in the same
argument, after an equals sign or right after the name. -/
inductive Word (Request : Type) where
  | separator
  | plain (text : String)
  | option (spec : OptionSpec Request) (name : String) (attached : Option (List Char))
  | unknown (text : String)

namespace Grammar

def named (grammar : Grammar Request) : List (String × OptionSpec Request) :=
  grammar.options.flatMap fun spec => spec.names.map fun name => (name, spec)

def splitEquals (text : List Char) : List Char × Option (List Char) :=
  match text.dropWhile (· != '=') with
  | [] => (text, none)
  | _ :: value => (text.takeWhile (· != '='), some value)

def startsWith (text start : List Char) : Bool :=
  start.isPrefixOf text

def candidates (grammar : Grammar Request) (text : List Char) :
    List (String × OptionSpec Request × Option (List Char)) :=
  match text with
  | '-' :: '-' :: _ =>
      let (start, attached) := splitEquals text
      grammar.named.filterMap fun (name, spec) =>
        if startsWith name.toList start then some (name, spec, attached) else none
  | dash :: letter :: rest =>
      grammar.named.filterMap fun (name, spec) =>
        if name.toList == [dash, letter] then some (name, spec, some rest)
        else if startsWith name.toList text then some (name, spec, none)
        else none
  | _ => []

def endsInDigits (text : List Char) : Bool :=
  match text.dropWhile Text.isDigit with
  | [] => true
  | rest => rest == ['\n']

def isNegativeNumber : List Char → Bool
  | '-' :: digit :: rest =>
      match (digit :: rest).dropWhile Text.isDigit with
      | '.' :: first :: fraction => Text.isDigit first && endsInDigits fraction
      | _ => Text.isDigit digit && endsInDigits rest
  | _ => false

def guess (grammar : Grammar Request) (text : String) : Except Stop (Word Request) :=
  match grammar.candidates text.toList with
  | [(name, spec, attached)] => .ok (.option spec name attached)
  | [] =>
      if isNegativeNumber text.toList || text.toList.contains ' ' then .ok (.plain text)
      else .ok (.unknown text)
  | several =>
      .error (.wrongUse ("ambiguous option: " ++ text ++ " could match " ++
        ", ".intercalate (several.map Prod.fst)))

def classify (grammar : Grammar Request) (text : String) : Except Stop (Word Request) :=
  match text.toList with
  | '-' :: _ :: _ =>
      match grammar.named.lookup text with
      | some spec => .ok (.option spec text none)
      | none =>
          let (name, attached) := splitEquals text.toList
          match attached, grammar.named.lookup (String.ofList name) with
          | some value, some spec => .ok (.option spec (String.ofList name) (some value))
          | _, _ => grammar.guess text
  | _ => .ok (.plain text)

def words (grammar : Grammar Request) : List String → Except Stop (List (Word Request))
  | [] => .ok []
  | text :: rest => do
      if text == "--" then
        return .separator :: rest.map .plain
      else
        let word ← grammar.classify text
        return word :: (← grammar.words rest)

/-! ## Options written together -/

structure Expansion (Request : Type) where
  ready : List (OptionSpec Request × String × Option String)
  waiting : Option (OptionSpec Request × String)

def single (spec : OptionSpec Request) (name : String) : Expansion Request :=
  if spec.takesValue then ⟨[], some (spec, name)⟩ else ⟨[(spec, name, none)], none⟩

def isLong (name : String) : Bool :=
  startsWith name.toList "--".toList

/-- The options of an argument in which `text` is attached to an option.  Each letter
after a short option without value has to be a short option too. -/
def expand (grammar : Grammar Request) (spec : OptionSpec Request) (name : String) :
    List Char → Except Stop (Expansion Request)
  | [] => if spec.takesValue then .ok ⟨[(spec, name, some "")], none⟩ else spec.ignored []
  | letter :: tail =>
      let next := String.ofList ['-', letter]
      if spec.takesValue then
        .ok ⟨[(spec, name, some (String.ofList (letter :: tail)))], none⟩
      else if isLong name then
        spec.ignored (letter :: tail)
      else
        match grammar.named.lookup next with
        | none => spec.ignored (letter :: tail)
        | some nextSpec => do
            let rest ← match tail with
              | [] => pure (single nextSpec next)
              | more => grammar.expand nextSpec next more
            return { rest with ready := (spec, name, none) :: rest.ready }

def expandWord (grammar : Grammar Request) (spec : OptionSpec Request) (name : String) :
    Option (List Char) → Except Stop (Expansion Request)
  | none => .ok (single spec name)
  | some text => grammar.expand spec name text

/-! ## All arguments -/

structure Progress (Request : Type) where
  request : Request
  operandsSeen : Bool
  extras : List String

namespace Progress

def perform (progress : Progress Request) :
    List (OptionSpec Request × String × Option String) → Except Stop (Progress Request)
  | [] => .ok progress
  | (spec, name, value) :: rest => do
      let request ← spec.perform name value progress.request
      perform { progress with request := request } rest

def addExtra (progress : Progress Request) (extra : String) : Progress Request :=
  { progress with extras := progress.extras ++ [extra] }

end Progress

/-- Takes arguments between options as the operands, if those are still to come.  The
two dashes that end the options are no operand. -/
def takeOperands (grammar : Grammar Request) (segment : List String) (hasPlain : Bool)
    (progress : Progress Request) : Progress Request :=
  match grammar.operands, hasPlain && !progress.operandsSeen with
  | some operands, true =>
      { progress with
        request := operands.apply (segment.erase "--") progress.request
        operandsSeen := true }
  | _, _ => { progress with extras := progress.extras ++ segment }

def consume (grammar : Grammar Request) (segment : List String) (hasPlain : Bool)
    (progress : Progress Request) : List (Word Request) → Except Stop (Progress Request)
  | [] => .ok (grammar.takeOperands segment hasPlain progress)
  | .separator :: rest => grammar.consume (segment ++ ["--"]) hasPlain progress rest
  | .plain text :: rest => grammar.consume (segment ++ [text]) true progress rest
  | .unknown text :: rest =>
      let progress := grammar.takeOperands segment hasPlain progress
      grammar.consume [] false (progress.addExtra text) rest
  | .option spec name attached :: rest =>
      let progress := grammar.takeOperands segment hasPlain progress
      match grammar.expandWord spec name attached with
      | .error stop => .error stop
      | .ok expansion =>
          match expansion.waiting, rest with
          | none, rest => do
              let progress ← progress.perform expansion.ready
              grammar.consume [] false progress rest
          | some (last, lastName), .plain value :: rest => do
              let progress ← progress.perform (expansion.ready ++ [(last, lastName, some value)])
              grammar.consume [] false progress rest
          | some (last, _), _ => last.refuse "expected one argument"

def parse (grammar : Grammar Request) (defaults : Request) (arguments : List String) :
    Except Stop Request := do
  let words ← grammar.words arguments
  let progress ← grammar.consume [] false ⟨defaults, false, []⟩ words
  match grammar.operands, progress.operandsSeen with
  | some operands, false =>
      .error (.wrongUse ("the following arguments are required: " ++ operands.name))
  | _, _ =>
      if progress.extras.isEmpty then
        return progress.request
      else
        .error (.wrongUse ("unrecognized arguments: " ++ " ".intercalate progress.extras))

end Grammar

/-! ## Values -/

def oneOf {α : Type} (choices : List (String × α)) (value : String) : Except String α :=
  match choices.lookup value with
  | some choice => .ok choice
  | none =>
      .error ("invalid choice: " ++ Text.quote value ++ " (choose from " ++
        ", ".intercalate (choices.map fun choice => Text.quote choice.1) ++ ")")

inductive Exit (α : Type) where
  | status (code : Nat)
  | stopped (code : Nat)
  | aborted (cause : α)

structure Outcome (α : Type) where
  exit : Exit α
  stdout : String
  stderr : String

def stopOutcome {α : Type} (program usage help : String) : Stop → Outcome α
  | .help => ⟨.stopped 0, help, ""⟩
  | .wrongUse text => ⟨.stopped 2, "", usage ++ program ++ ": error: " ++ text ++ "\n"⟩

end TokenSpacing.CommandLine
