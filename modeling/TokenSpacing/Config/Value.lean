/-!
Values of a settings file, and the booleans that they can stand for.
-/

namespace TokenSpacing

inductive Value where
  | null
  | boolean (value : Bool)
  | integer (value : Int)
  | real (value : Float)
  | text (value : String)
  | moment
  | array (items : List Value)
  | table (entries : List (String × Value))

abbrev Entries := List (String × Value)

namespace Entries

def put (entries : Entries) (key : String) (value : Value) : Entries :=
  match entries with
  | [] => [(key, value)]
  | (other, old) :: rest =>
      if other == key then (key, value) :: rest else (other, old) :: put rest key value

end Entries

inductive BooleanFault where
  | uninterpretable
  | wrongKind
  deriving DecidableEq, Repr

namespace Value

def falseWords : List String := ["0", "off", "f", "false", "n", "no"]

def trueWords : List String := ["1", "on", "t", "true", "y", "yes"]

def booleanOfText (text : String) : Except BooleanFault Bool :=
  let word := String.ofList (text.toList.map Char.toLower)
  if falseWords.contains word then .ok false
  else if trueWords.contains word then .ok true
  else .error .uninterpretable

/-- Zero and one stand for booleans; integers beyond 64 bits are not even tried. -/
def booleanOfInt (number : Int) : Except BooleanFault Bool :=
  if number = 0 then .ok false
  else if number = 1 then .ok true
  else if -9223372036854775808 ≤ number ∧ number < 9223372036854775808 then .error .uninterpretable
  else .error .wrongKind

def booleanOfReal (number : Float) : Except BooleanFault Bool :=
  if number == 0 then .ok false
  else if number == 1 then .ok true
  else if number.floor == number && -9223372036854775808.0 < number &&
      number < 9223372036854775808.0 then
    .error .uninterpretable
  else .error .wrongKind

def toBoolean : Value → Except BooleanFault Bool
  | boolean value => .ok value
  | integer value => booleanOfInt value
  | real value => booleanOfReal value
  | text value => booleanOfText value
  | null | moment | array _ | table _ => .error .wrongKind

end Value

end TokenSpacing
