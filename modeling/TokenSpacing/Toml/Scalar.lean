import TokenSpacing.Config.Value
import TokenSpacing.Text.Numeral

/-!
Single values of a TOML document: strings, numbers, dates and times.

Every reader gets the remaining text and returns what it read with the text after it.
Line ends are single line feeds here.
-/

namespace TokenSpacing.Toml

inductive Fault where
  | malformed
  | longInteger
  deriving DecidableEq, Repr

abbrev Parsed (α : Type) := α × List Char

def malformed {α : Type} : Except Fault α :=
  .error .malformed

/-! ## Blanks and comments -/

def isBlank (c : Char) : Bool :=
  c == ' ' || c == '\t'

def isBlankOrBreak (c : Char) : Bool :=
  isBlank c || c == '\n'

def isIllegal (c : Char) : Bool :=
  (c.toNat < 0x20 && c != '\t') || c.toNat == 0x7f

def skipBlanks (text : List Char) : List Char :=
  text.dropWhile isBlank

def skipComment : List Char → Except Fault (List Char)
  | '#' :: rest =>
      if (rest.takeWhile (· != '\n')).any isIllegal then malformed
      else .ok (rest.dropWhile (· != '\n'))
  | text => .ok text

def skipFiller : Nat → List Char → Except Fault (List Char)
  | 0, text => .ok text
  | fuel + 1, text => do
      let next ← skipComment (text.dropWhile isBlankOrBreak)
      if next.length = text.length then return next else skipFiller fuel next

/-! ## Strings -/

def readCode (width : Nat) (text : List Char) : Except Fault (Parsed (List Char)) :=
  let digits := text.take width
  let code := Text.baseValue 16 digits
  if digits.length = width ∧ digits.all Text.isHexDigit ∧ code.isValidChar then
    .ok ([Char.ofNat code], text.drop width)
  else
    malformed

def shortEscape? (c : Char) : Option Char :=
  [('b', Char.ofNat 0x08), ('t', '\t'), ('n', '\n'), ('f', Char.ofNat 0x0c), ('r', '\r'),
   ('"', '"'), ('\\', '\\')].lookup c

/-- What an escape stands for, given the text after its backslash.  In strings of several
lines a backslash at the end of a line joins it to the next text. -/
def readEscape (multiline : Bool) : List Char → Except Fault (Parsed (List Char))
  | [] => malformed
  | c :: rest =>
      if multiline && isBlankOrBreak c then
        match if c == '\n' then c :: rest else skipBlanks rest with
        | [] => .ok ([], [])
        | '\n' :: next => .ok ([], next.dropWhile isBlankOrBreak)
        | _ => malformed
      else if c == 'u' then readCode 4 rest
      else if c == 'U' then readCode 8 rest
      else match shortEscape? c with
        | some escaped => .ok ([escaped], rest)
        | none => malformed

def readBasic (multiline : Bool) : Nat → List Char → Except Fault (Parsed (List Char))
  | 0, _ => malformed
  | _ + 1, [] => malformed
  | fuel + 1, '\\' :: rest => do
      let (escaped, next) ← readEscape multiline rest
      let (text, after) ← readBasic multiline fuel next
      return (escaped ++ text, after)
  | fuel + 1, '"' :: rest =>
      if !multiline then .ok ([], rest)
      else match rest with
        | '"' :: '"' :: after => .ok ([], after)
        | _ => do
            let (text, after) ← readBasic multiline fuel rest
            return ('"' :: text, after)
  | fuel + 1, c :: rest => do
      if isIllegal c && !(multiline && c == '\n') then malformed
      else
        let (text, after) ← readBasic multiline fuel rest
        return (c :: text, after)

def readLiteral (text : List Char) : Except Fault (Parsed (List Char)) :=
  let content := text.takeWhile (· != '\'')
  match text.dropWhile (· != '\'') with
  | [] => malformed
  | _ :: after => if content.any isIllegal then malformed else .ok (content, after)

def readLongLiteral : List Char → Except Fault (Parsed (List Char))
  | [] => malformed
  | '\'' :: '\'' :: '\'' :: after => .ok ([], after)
  | c :: rest => do
      if isIllegal c && c != '\n' then malformed
      else
        let (text, after) ← readLongLiteral rest
        return (c :: text, after)

/-- Up to two quotes right after the end of a string of several lines belong to it. -/
def extraQuotes (mark : Char) : List Char → List Char × List Char
  | first :: second :: rest =>
      if first == mark then
        if second == mark then ([mark, mark], rest) else ([mark], second :: rest)
      else ([], first :: second :: rest)
  | [first] => if first == mark then ([mark], []) else ([], [first])
  | [] => ([], [])

def skipFirstBreak : List Char → List Char
  | '\n' :: rest => rest
  | text => text

def readString : List Char → Except Fault (Parsed (List Char))
  | '"' :: '"' :: '"' :: rest => do
      let (text, after) ← readBasic true (rest.length + 1) (skipFirstBreak rest)
      let (extra, after) := extraQuotes '"' after
      return (text ++ extra, after)
  | '"' :: rest => readBasic false (rest.length + 1) rest
  | '\'' :: '\'' :: '\'' :: rest => do
      let (text, after) ← readLongLiteral (skipFirstBreak rest)
      let (extra, after) := extraQuotes '\'' after
      return (text ++ extra, after)
  | '\'' :: rest => readLiteral rest
  | _ => malformed

/-! ## Numbers -/

def isDecimal (c : Char) : Bool :=
  '0' ≤ c && c ≤ '9'

def moreDigits (isDigit : Char → Bool) : List Char → List Char × List Char
  | '_' :: c :: rest =>
      if isDigit c then
        let (digits, after) := moreDigits isDigit rest
        (c :: digits, after)
      else ([], '_' :: c :: rest)
  | c :: rest =>
      if isDigit c then
        let (digits, after) := moreDigits isDigit rest
        (c :: digits, after)
      else ([], c :: rest)
  | [] => ([], [])

def digitRun? (isDigit : Char → Bool) : List Char → Option (List Char × List Char)
  | [] => none
  | c :: rest =>
      if isDigit c then
        let (digits, after) := moreDigits isDigit rest
        some (c :: digits, after)
      else none

def basedInteger? : List Char → Option (Value × List Char)
  | '0' :: 'x' :: rest => (digitRun? Text.isHexDigit rest).map fun (digits, after) =>
      (.integer (Text.baseValue 16 digits), after)
  | '0' :: 'o' :: rest =>
      (digitRun? (fun c => '0' ≤ c && c ≤ '7') rest).map fun (digits, after) =>
        (.integer (Text.baseValue 8 digits), after)
  | '0' :: 'b' :: rest =>
      (digitRun? (fun c => c == '0' || c == '1') rest).map fun (digits, after) =>
        (.integer (Text.baseValue 2 digits), after)
  | _ => none

def wholePart? : List Char → Option (List Char × List Char)
  | '0' :: rest => some (['0'], rest)
  | text => digitRun? isDecimal text

def fractionPart (text : List Char) : List Char × List Char :=
  match text with
  | '.' :: rest =>
      match digitRun? isDecimal rest with
      | some (digits, after) => ('.' :: digits, after)
      | none => ([], text)
  | _ => ([], text)

def takeSign : List Char → List Char × List Char
  | '+' :: rest => (['+'], rest)
  | '-' :: rest => (['-'], rest)
  | text => ([], text)

def exponentPart (text : List Char) : List Char × List Char :=
  match text with
  | mark :: rest =>
      if mark == 'e' || mark == 'E' then
        let (sign, rest) := takeSign rest
        match digitRun? isDecimal rest with
        | some (digits, after) => ('e' :: sign ++ digits, after)
        | none => ([], text)
      else ([], text)
  | [] => ([], [])

def decimalNumber (text : List Char) : Option (Except Fault (Parsed Value)) := do
  let (sign, unsigned) := takeSign text
  let (whole, rest) ← wholePart? unsigned
  let (fraction, rest) := fractionPart rest
  let (exponent, rest) := exponentPart rest
  if fraction.isEmpty && exponent.isEmpty then
    if Text.digitLimit < whole.length then return .error .longInteger
    return .ok (.integer (Text.signedValue (sign ++ whole)), rest)
  else
    return .ok (.real (Text.readReal (sign ++ whole ++ fraction ++ exponent)), rest)

def specialNumber? (text : List Char) : Option (Value × List Char) :=
  let (sign, rest) := takeSign text
  let word := rest.take 3
  if word == "inf".toList || word == "nan".toList then
    some (.real (Text.readReal (sign ++ word)), rest.drop 3)
  else
    none

/-! ## Dates and times -/

def fixedNumber? (width least greatest : Nat) (text : List Char) : Option (Nat × List Char) :=
  let digits := text.take width
  let number := Text.digitsValue digits
  if digits.length = width ∧ digits.all isDecimal ∧ least ≤ number ∧ number ≤ greatest then
    some (number, text.drop width)
  else
    none

def expect? (c : Char) : List Char → Option (List Char)
  | [] => none
  | next :: rest => if next == c then some rest else none

def isLeapYear (year : Nat) : Bool :=
  year % 4 == 0 && (year % 100 != 0 || year % 400 == 0)

def daysInMonth (year month : Nat) : Nat :=
  if month == 2 then (if isLeapYear year then 29 else 28)
  else if [4, 6, 9, 11].contains month then 30
  else 31

def time? (text : List Char) : Option (List Char) := do
  let (_, rest) ← fixedNumber? 2 0 23 text
  let (_, rest) ← fixedNumber? 2 0 59 (← expect? ':' rest)
  let (_, rest) ← fixedNumber? 2 0 59 (← expect? ':' rest)
  match rest with
  | '.' :: c :: after => return if isDecimal c then after.dropWhile isDecimal else rest
  | _ => return rest

def skipOffset (text : List Char) : List Char :=
  match text with
  | 'Z' :: rest | 'z' :: rest => rest
  | sign :: rest =>
      let offset := do
        let (_, rest) ← fixedNumber? 2 0 23 rest
        let (_, rest) ← fixedNumber? 2 0 59 (← expect? ':' rest)
        return rest
      if sign == '+' || sign == '-' then offset.getD text else text
  | [] => []

def skipTime (text : List Char) : List Char :=
  match text with
  | mark :: rest =>
      if mark == 'T' || mark == 't' || mark == ' ' then
        ((time? rest).map skipOffset).getD text
      else text
  | [] => []

/-- A date with an optional time.  Text in the form of a date has to name a day that
exists. -/
def dateTime? (text : List Char) : Option (Except Fault (Parsed Value)) := do
  let (year, rest) ← fixedNumber? 4 0 9999 text
  let (month, rest) ← fixedNumber? 2 1 12 (← expect? '-' rest)
  let (day, rest) ← fixedNumber? 2 1 31 (← expect? '-' rest)
  if 1 ≤ year ∧ day ≤ daysInMonth year month then
    return .ok (.moment, skipTime rest)
  else
    return malformed

/-! ## Values without parts -/

def dropWord? (word : String) (text : List Char) : Option (List Char) :=
  if word.toList.isPrefixOf text then some (text.drop word.length) else none

def readPlain (text : List Char) : Except Fault (Parsed Value) :=
  match dropWord? "true" text, dropWord? "false" text with
  | some rest, _ => .ok (.boolean true, rest)
  | _, some rest => .ok (.boolean false, rest)
  | none, none =>
      match dateTime? text with
      | some result => result
      | none =>
          match time? text, basedInteger? text with
          | some rest, _ => .ok (.moment, rest)
          | _, some result => .ok result
          | none, none =>
              match decimalNumber text, specialNumber? text with
              | some result, _ => result
              | _, some result => .ok result
              | none, none => malformed

end TokenSpacing.Toml
