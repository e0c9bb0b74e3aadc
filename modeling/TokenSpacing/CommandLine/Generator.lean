import TokenSpacing.CommandLine.Options
import TokenSpacing.Corpus.Sources
import TokenSpacing.Failure
import TokenSpacing.Files.FileTree
import TokenSpacing.Text.Layout

/-!
The command that writes a corpus of random sources.
-/

namespace TokenSpacing.CommandLine

def digitGroups? : List Char → Option (List Char)
  | [] => none
  | [c] => if Text.isDigit c then some [c] else none
  | c :: '_' :: rest =>
      if Text.isDigit c then (digitGroups? rest).map (c :: ·) else none
  | c :: rest => if Text.isDigit c then (digitGroups? rest).map (c :: ·) else none

/-- White space that may stand around an integer, which the four separators U+001C to
U+001F may not. -/
def isMargin (c : Char) : Bool :=
  Text.isSpace c && !(0x1c ≤ c.toNat && c.toNat ≤ 0x1f)

def readInteger? (text : String) : Option Int :=
  let within (limit : List Char) : Bool := limit.length ≤ Text.digitLimit
  match Text.trim isMargin text.toList with
  | '-' :: rest =>
      ((digitGroups? rest).filter within).map fun digits => -(Text.digitsValue digits : Int)
  | '+' :: rest => ((digitGroups? rest).filter within).map fun digits => Text.digitsValue digits
  | rest => ((digitGroups? rest).filter within).map fun digits => Text.digitsValue digits

def integer (value : String) : Except String Int :=
  match readInteger? value with
  | some number => .ok number
  | none => .error ("invalid int value: " ++ Text.quote value)

structure CorpusRequest where
  seed : Int
  count : Int
  out : String
  deriving DecidableEq, Repr

namespace CorpusRequest

def directory (request : CorpusRequest) (current : Location) : Location :=
  (Path.ofText request.out).resolve current ++
    ["seed_" ++ toString request.seed ++ "_count_" ++ toString request.count]

def nameLimit : Nat := 255

def isPossible (request : CorpusRequest) (current : Location) : Bool :=
  (request.directory current).all fun name => name.utf8ByteSize ≤ nameLimit

def files (request : CorpusRequest) (current : Location) : List (Location × List Char) :=
  (Corpus.files request.seed request.count.toNat).map fun (name, text) =>
    (request.directory current ++ [name], text)

/-- A request makes its directory and writes its files into it, one after the other. -/
def changes (request : CorpusRequest) (current : Location) : List FileChange :=
  .makeDirectory (request.directory current) ::
    (request.files current).map fun (location, text) => .write location text

end CorpusRequest

structure CorpusOptions where
  seed : Given Int
  count : Given Int
  out : Given String
  deriving DecidableEq, Repr

namespace CorpusOptions

def defaults : CorpusOptions :=
  ⟨.value 1, .value 200, .value "tests/fixtures/generated_corpus"⟩

def request? (options : CorpusOptions) : Option CorpusRequest := do
  return ⟨← options.seed.value?, ← options.count.value?, ← options.out.value?⟩

def grammar : Grammar CorpusOptions where
  options :=
    [⟨["-h", "--help"], .help⟩,
     ⟨["--seed"], .storing integer fun seed options => { options with seed := seed }⟩,
     ⟨["--count"], .storing integer fun count options => { options with count := count }⟩,
     ⟨["--out"], .storing .ok fun out options => { options with out := out }⟩]
  operands := none

def program : String := "generate_corpus"

def usage : String :=
  "usage: generate_corpus [-h] [--seed SEED] [--count COUNT] [--out OUT]\n"

def help : String :=
  usage ++
  "\noptions:\n" ++
  "  -h, --help     show this help message and exit\n" ++
  "  --seed SEED\n" ++
  "  --count COUNT\n" ++
  "  --out OUT\n"

end CorpusOptions

def produce (current : Location) (arguments : List String) :
    Outcome Failure × List FileChange :=
  match CorpusOptions.grammar.parse .defaults arguments with
  | .error stop =>
      (stopOutcome CorpusOptions.program CorpusOptions.usage CorpusOptions.help stop, [])
  | .ok options =>
      match options.request? with
      | none => (⟨.aborted .blankOption, "", ""⟩, [])
      | some request =>
          if request.isPossible current then
            (⟨.status 0, (request.directory current).text ++ "\n", ""⟩, request.changes current)
          else
            (⟨.aborted .longName, "", ""⟩, [])

def generate (current : Location) (arguments : List String) :
    Outcome Failure × List (Location × List Char) :=
  let (outcome, changes) := produce current arguments
  (outcome, changes.filterMap FileChange.written?)

end TokenSpacing.CommandLine
