/-!
Numbers in digits.

The decimal digits of a script are ten neighbours in increasing value, so its zero says
everything; the table lists the zeros of Unicode 14.  Real numbers are rounded to the
nearest floating point number.
-/

namespace TokenSpacing.Text

def digitZeros : List Nat :=
  [0x30, 0x660, 0x6f0, 0x7c0, 0x966, 0x9e6, 0xa66, 0xae6, 0xb66, 0xbe6, 0xc66, 0xce6, 0xd66,
   0xde6, 0xe50, 0xed0, 0xf20, 0x1040, 0x1090, 0x17e0, 0x1810, 0x1946, 0x19d0, 0x1a80, 0x1a90,
   0x1b50, 0x1bb0, 0x1c40, 0x1c50, 0xa620, 0xa8d0, 0xa900, 0xa9d0, 0xa9f0, 0xaa50, 0xabf0, 0xff10,
   0x104a0, 0x10d30, 0x11066, 0x110f0, 0x11136, 0x111d0, 0x112f0, 0x11450, 0x114d0, 0x11650,
   0x116c0, 0x11730, 0x118e0, 0x11950, 0x11c50, 0x11d50, 0x11da0, 0x16a60, 0x16ac0, 0x16b50,
   0x1d7ce, 0x1d7d8, 0x1d7e2, 0x1d7ec, 0x1d7f6, 0x1e140, 0x1e2f0, 0x1e950, 0x1fbf0]

def digitValue? (c : Char) : Option Nat :=
  (digitZeros.find? fun first => first ≤ c.toNat && c.toNat < first + 10).map (c.toNat - ·)

def isDigit (c : Char) : Bool :=
  (digitValue? c).isSome

def digitsValue (digits : List Char) : Nat :=
  digits.foldl (fun value c => 10 * value + (digitValue? c).getD 0) 0

def digitLimit : Nat := 4300

def signedValue : List Char → Int
  | '+' :: digits => digitsValue digits
  | '-' :: digits => -(digitsValue digits : Int)
  | digits => digitsValue digits

/-! ## Hexadecimal digits -/

def hexDigits (width number : Nat) : List Char :=
  match width with
  | 0 => []
  | width + 1 => hexDigits width (number / 16) ++ [Nat.digitChar (number % 16)]

def isHexDigit (c : Char) : Bool :=
  ('0' ≤ c && c ≤ '9') || ('a' ≤ c && c ≤ 'f') || ('A' ≤ c && c ≤ 'F')

def hexDigitValue (c : Char) : Nat :=
  if c ≤ '9' then c.toNat - '0'.toNat
  else if c ≤ 'F' then c.toNat - 'A'.toNat + 10
  else c.toNat - 'a'.toNat + 10

def baseValue (base : Nat) (digits : List Char) : Nat :=
  digits.foldl (fun value c => base * value + hexDigitValue c) 0

/-! ## Real numbers -/

/-- The number `mantissa * 10 ^ exponent`.  Magnitudes that are certain to round to
infinity or to zero are not computed. -/
def scaleReal (mantissa : Nat) (exponent : Int) : Float :=
  let magnitude : Int := (Nat.toDigits 10 mantissa).length + exponent
  if mantissa = 0 ∨ magnitude < -400 then 0.0
  else if 400 < magnitude then 1.0 / 0.0
  else Float.ofScientific mantissa (exponent < 0) exponent.natAbs

def unsignedReal (text : List Char) : Float :=
  if text == "inf".toList then 1.0 / 0.0
  else if text == "nan".toList then 0.0 / 0.0
  else
    let isExponentMark (c : Char) : Bool := c == 'e' || c == 'E'
    let significand := text.takeWhile (!isExponentMark ·)
    let exponent := signedValue ((text.dropWhile (!isExponentMark ·)).drop 1)
    let fraction := (significand.dropWhile (· != '.')).drop 1
    scaleReal (digitsValue (significand.filter (· != '.'))) (exponent - fraction.length)

def readReal (text : List Char) : Float :=
  match text.filter (· != '_') with
  | '-' :: rest => -unsignedReal rest
  | '+' :: rest => unsignedReal rest
  | plain => unsignedReal plain

end TokenSpacing.Text
