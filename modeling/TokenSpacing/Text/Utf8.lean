/-!
UTF-8, read strictly.

Decoding accepts exactly the shortest form of every character: no surrogates, no
overlong forms, nothing above U+10FFFF.  It splits any bytes into the longest text
they start with and the rest, which is empty exactly when all bytes are text.  Bytes that
are no part of a character can also be left out.
-/

namespace TokenSpacing.Text

def encodeChar (c : Char) : List UInt8 :=
  let code := c.toNat
  if code < 0x80 then
    [code.toUInt8]
  else if code < 0x800 then
    [(0xc0 + code / 0x40).toUInt8, (0x80 + code % 0x40).toUInt8]
  else if code < 0x10000 then
    [(0xe0 + code / 0x1000).toUInt8, (0x80 + code / 0x40 % 0x40).toUInt8,
     (0x80 + code % 0x40).toUInt8]
  else
    [(0xf0 + code / 0x40000).toUInt8, (0x80 + code / 0x1000 % 0x40).toUInt8,
     (0x80 + code / 0x40 % 0x40).toUInt8, (0x80 + code % 0x40).toUInt8]

def encode (text : List Char) : List UInt8 :=
  text.flatMap encodeChar

def byteLength (c : Char) : Nat :=
  (encodeChar c).length

def continuation? (byte : UInt8) : Option Nat :=
  if 0x80 ≤ byte.toNat ∧ byte.toNat < 0xc0 then some (byte.toNat - 0x80) else none

def continueCode (count code : Nat) (bytes : List UInt8) : Option (Nat × List UInt8) :=
  match count, bytes with
  | 0, bytes => some (code, bytes)
  | _ + 1, [] => none
  | count + 1, byte :: rest =>
      match continuation? byte with
      | none => none
      | some bits => continueCode count (0x40 * code + bits) rest

/-- A lead byte's share of the code, the number of bytes to follow, and the least code
that needs them. -/
def leadByte? (byte : UInt8) : Option (Nat × Nat × Nat) :=
  let lead := byte.toNat
  if lead < 0x80 then some (lead, 0, 0)
  else if lead < 0xc0 then none
  else if lead < 0xe0 then some (lead - 0xc0, 1, 0x80)
  else if lead < 0xf0 then some (lead - 0xe0, 2, 0x800)
  else if lead < 0xf8 then some (lead - 0xf0, 3, 0x10000)
  else none

def decodeChar? : List UInt8 → Option (Char × List UInt8)
  | [] => none
  | byte :: rest =>
      match leadByte? byte with
      | none => none
      | some (lead, count, least) =>
          match continueCode count lead rest with
          | none => none
          | some (code, remaining) =>
              if least ≤ code ∧ code.isValidChar then
                some (Char.ofNat code, remaining)
              else
                none

theorem length_continueCode {count code total : Nat} {bytes remaining : List UInt8}
    (gathered : continueCode count code bytes = some (total, remaining)) :
    remaining.length ≤ bytes.length := by
  induction count generalizing code bytes with
  | zero =>
      simp only [continueCode, Option.some.injEq, Prod.mk.injEq] at gathered
      simp [gathered.2]
  | succ count ih =>
      cases bytes with
      | nil => simp [continueCode] at gathered
      | cons byte rest =>
          simp only [continueCode] at gathered
          split at gathered
          · contradiction
          · have := ih gathered
            simp only [List.length_cons]
            omega

theorem length_decodeChar {bytes remaining : List UInt8} {c : Char}
    (decoded : decodeChar? bytes = some (c, remaining)) :
    remaining.length < bytes.length := by
  cases bytes with
  | nil => simp [decodeChar?] at decoded
  | cons byte rest =>
      simp only [decodeChar?] at decoded
      split at decoded
      · contradiction
      · split at decoded
        · contradiction
        · next gathered =>
            split at decoded
            · simp only [Option.some.injEq, Prod.mk.injEq] at decoded
              have := length_continueCode gathered
              simp only [List.length_cons, ← decoded.2]
              omega
            · contradiction

def decodeLongest (bytes : List UInt8) : List Char × List UInt8 :=
  match _decoded : decodeChar? bytes with
  | none => ([], bytes)
  | some (c, remaining) =>
      let (text, rest) := decodeLongest remaining
      (c :: text, rest)
termination_by bytes.length
decreasing_by exact length_decodeChar _decoded

/-- All characters that can be read; a byte that starts none is left out. -/
def decodeIgnoring : List UInt8 → List Char
  | [] => []
  | byte :: rest =>
      match _decoded : decodeChar? (byte :: rest) with
      | none => decodeIgnoring rest
      | some (c, remaining) => c :: decodeIgnoring remaining
termination_by bytes => bytes.length
decreasing_by
  · simp
  · exact length_decodeChar _decoded

def decode? (bytes : List UInt8) : Option (List Char) :=
  match decodeLongest bytes with
  | (text, []) => some text
  | (_, _ :: _) => none

def isAscii (c : Char) : Bool :=
  c.toNat < 0x80

end TokenSpacing.Text
