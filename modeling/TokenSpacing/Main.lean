import TokenSpacing.CommandLine.Checker
import TokenSpacing.CommandLine.Generator
import TokenSpacing.Files.Snapshot

/-!
The command line.

Files are checked as a snapshot on standard input shows them, since a parser of Java has
to run before this program.  With `generate_corpus` as first argument, a corpus is
written instead.
-/

namespace TokenSpacing.CommandLine

partial def readLines (input : IO.FS.Stream) (lines : Array (List Char)) :
    IO (Array (List Char)) := do
  let line ← input.getLine
  if line.isEmpty then
    return lines
  else
    readLines input (lines.push (line.toList.filter (· != '\n')))

def exitCode : Exit Failure → UInt32
  | .status code | .stopped code => code.toUInt32
  | .aborted _ => 1

def finish (outcome : Outcome Failure) : IO UInt32 := do
  IO.print outcome.stdout
  IO.eprint outcome.stderr
  match outcome.exit with
  | .aborted (.violation violation) => IO.eprintln violation.message
  | _ => pure ()
  return exitCode outcome.exit

def perform : FileChange → IO Unit
  | .makeDirectory location => IO.FS.createDirAll location.text
  | .write location text => IO.FS.writeFile location.text (String.ofList text)

def runGenerator (arguments : List String) : IO UInt32 := do
  let here := Snapshot.location (← IO.currentDir).toString.toList
  let (outcome, changes) := produce here arguments
  for change in changes do
    perform change
  finish outcome

def runChecker (arguments : List String) : IO UInt32 := do
  let lines ← readLines (← IO.getStdin) #[]
  finish (check (Snapshot.ofLines lines.toList).workspace arguments)

def run : List String → IO UInt32
  | "generate_corpus" :: arguments => runGenerator arguments
  | arguments => runChecker arguments

end TokenSpacing.CommandLine

def main (arguments : List String) : IO UInt32 :=
  TokenSpacing.CommandLine.run arguments
