import TokenSpacing.Toml.Scalar
import TokenSpacing.Toml.Table

/-!
TOML documents.

A document is a list of statements: key and value pairs, table headers and headers of
arrays of tables.  Statements fill one nested table.
-/

namespace TokenSpacing.Toml

/-! ## Keys -/

def isBareKey (c : Char) : Bool :=
  ('a' ≤ c && c ≤ 'z') || ('A' ≤ c && c ≤ 'Z') || isDecimal c || c == '-' || c == '_'

def readKeyPart (text : List Char) : Except Fault (Parsed String) :=
  match text with
  | '\'' :: rest => do
      let (key, after) ← readLiteral rest
      return (String.ofList key, after)
  | '"' :: rest => do
      let (key, after) ← readBasic false (rest.length + 1) rest
      return (String.ofList key, after)
  | _ =>
      match text.takeWhile isBareKey with
      | [] => malformed
      | key => .ok (String.ofList key, text.dropWhile isBareKey)

def readKey : Nat → List Char → Except Fault (Parsed KeyPath)
  | 0, _ => malformed
  | fuel + 1, text => do
      let (part, after) ← readKeyPart text
      match skipBlanks after with
      | '.' :: rest =>
          let (path, after) ← readKey fuel (skipBlanks rest)
          return (part :: path, after)
      | rest => return ([part], rest)

/-! ## Values -/

def addInline (marks : List Mark) (path : KeyPath) (value : Value) (entries : Entries) :
    Except Fault Entries :=
  let (parent, key) := splitPath path
  if isSealed marks path then malformed
  else match modifyTable false (addEntry key value) parent entries with
    | some entries => .ok entries
    | none => malformed

mutual

def readValue : Nat → List Char → Except Fault (Parsed Value)
  | 0, _ => malformed
  | fuel + 1, text =>
      match text with
      | '"' :: _ | '\'' :: _ => do
          let (content, after) ← readString text
          return (.text (String.ofList content), after)
      | '[' :: rest => do
          let (items, after) ← readItems fuel (← skipFiller (rest.length + 1) rest)
          return (.array items, after)
      | '\x7b' :: rest =>
          match skipBlanks rest with
          | '\x7d' :: after => .ok (.table [], after)
          | rest => do
              let (entries, after) ← readInline fuel [] [] rest
              return (.table entries, after)
      | _ => readPlain text

def readItems : Nat → List Char → Except Fault (Parsed (List Value))
  | 0, _ => malformed
  | fuel + 1, text =>
      match text with
      | ']' :: after => .ok ([], after)
      | _ => do
          let (item, rest) ← readValue fuel text
          match ← skipFiller (rest.length + 1) rest with
          | ']' :: after => return ([item], after)
          | ',' :: rest =>
              let (items, after) ← readItems fuel (← skipFiller (rest.length + 1) rest)
              return (item :: items, after)
          | _ => malformed

def readPair : Nat → List Char → Except Fault (Parsed (KeyPath × Value))
  | 0, _ => malformed
  | fuel + 1, text => do
      let (path, rest) ← readKey (text.length + 1) text
      match rest with
      | '=' :: rest =>
          let (value, after) ← readValue fuel (skipBlanks rest)
          return ((path, value), after)
      | _ => malformed

def readInline : Nat → List Mark → Entries → List Char → Except Fault (Parsed Entries)
  | 0, _, _, _ => malformed
  | fuel + 1, marks, entries, text => do
      let ((path, value), rest) ← readPair fuel text
      let entries ← addInline marks path value entries
      let marks := if isInline value then .sealed path :: marks else marks
      match skipBlanks rest with
      | '\x7d' :: after => return (entries, after)
      | ',' :: rest => readInline fuel marks entries (skipBlanks rest)
      | _ => malformed

end

/-! ## Statements -/

/-- What the statements so far have built.  Paths of dotted keys count as opened only
from the next header on. -/
structure Document where
  data : Entries
  marks : List Mark
  pending : List Mark
  header : KeyPath

namespace Document

def empty : Document :=
  ⟨[], [], [], []⟩

def settle (document : Document) : Document :=
  { document with marks := document.pending ++ document.marks, pending := [] }

def openTable (document : Document) (path : KeyPath) : Except Fault Document :=
  if isOpened document.marks path || isSealed document.marks path then malformed
  else match modifyTable true some path document.data with
    | some data =>
        .ok { document with data := data, marks := .opened path :: document.marks, header := path }
    | none => malformed

def openArrayItem (document : Document) (path : KeyPath) : Except Fault Document :=
  let (parent, key) := splitPath path
  if isSealed document.marks path then malformed
  else match modifyTable true (appendTable key) parent document.data with
    | some data =>
        let marks := .opened path :: forget document.marks path
        .ok { document with data := data, marks := marks, header := path }
    | none => malformed

def innerPaths (header path : KeyPath) : List KeyPath :=
  ((List.range path.length).drop 1).map fun length => header ++ path.take length

def assign (document : Document) (path : KeyPath) (value : Value) : Except Fault Document :=
  let inner := innerPaths document.header path
  let (parent, key) := splitPath (document.header ++ path)
  if inner.any (isOpened document.marks) || isSealed document.marks parent then malformed
  else match modifyTable true (addEntry key value) parent document.data with
    | some data =>
        let sealing := if isInline value then [.sealed (document.header ++ path)] else []
        .ok { document with
          data := data
          marks := sealing ++ document.marks
          pending := inner.map .opened ++ document.pending }
    | none => malformed

end Document

def readStatement (document : Document) (text : List Char) : Except Fault (Parsed Document) :=
  match text with
  | '[' :: '[' :: rest => do
      let (path, after) ← readKey (rest.length + 1) (skipBlanks rest)
      let document ← document.settle.openArrayItem path
      match after with
      | ']' :: ']' :: after => return (document, after)
      | _ => malformed
  | '[' :: rest => do
      let (path, after) ← readKey (rest.length + 1) (skipBlanks rest)
      let document ← document.settle.openTable path
      match after with
      | ']' :: after => return (document, after)
      | _ => malformed
  | '#' :: _ => .ok (document, text)
  | c :: _ =>
      if isBareKey c || c == '"' || c == '\'' then do
        let ((path, value), after) ← readPair (2 * text.length + 2) text
        return (← document.assign path value, after)
      else malformed
  | [] => .ok (document, [])

def readStatements : Nat → Document → List Char → Except Fault Document
  | 0, document, _ => .ok document
  | fuel + 1, document, text =>
      match skipBlanks text with
      | [] => .ok document
      | '\n' :: rest => readStatements fuel document rest
      | start => do
          let (document, rest) ← readStatement document start
          match ← skipComment (skipBlanks rest) with
          | [] => return document
          | '\n' :: rest => readStatements fuel document rest
          | _ => malformed

def joinLineEnds : List Char → List Char
  | '\r' :: '\n' :: rest => '\n' :: joinLineEnds rest
  | c :: rest => c :: joinLineEnds rest
  | [] => []

def read (text : List Char) : Except Fault Entries := do
  let text := joinLineEnds text
  return (← readStatements (text.length + 1) .empty text).data

end TokenSpacing.Toml
