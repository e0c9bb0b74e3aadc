import TokenSpacing.Corpus.Twister

/-!
Sources of random choices.
-/

namespace TokenSpacing.Corpus

/-- A source of choices: numbers below a bound, and 53-bit fractions. -/
structure Draws (Source : Type) where
  below : Nat → Source → Nat × Source
  fraction : Source → Nat × Source

abbrev Gen (Source α : Type) := StateM Source α

namespace Twister

def bitLength (number : Nat) : Nat :=
  if number = 0 then 0 else number.log2 + 1

def nextBits (count : Nat) (twister : Twister) : Nat × Twister :=
  let (value, twister) := twister.next
  (value.toNat >>> (32 - count), twister)

/-- Draws until a number is below the bound, at most `tries` times.  Every draw succeeds
with a chance of one half or more. -/
def nextBelow (bound : Nat) : Nat → Twister → Nat × Twister
  | 0, twister => (0, twister)
  | tries + 1, twister =>
      let (value, twister) := twister.nextBits (bitLength bound)
      if value < bound then (value, twister) else nextBelow bound tries twister

def nextFraction (twister : Twister) : Nat × Twister :=
  let (high, twister) := twister.next
  let (low, twister) := twister.next
  ((high >>> 5).toNat * 0x4000000 + (low >>> 6).toNat, twister)

def draws : Draws Twister where
  below bound twister := twister.nextBelow bound 4096
  fraction := nextFraction

end Twister

namespace Draws

variable {Source : Type}

def between (draws : Draws Source) (least greatest : Nat) : Gen Source Nat := fun source =>
  let (value, source) := draws.below (greatest - least + 1) source
  (least + value, source)

def pick {α : Type} (draws : Draws Source) (values : List α) (default : α) : Gen Source α :=
  fun source =>
    let (index, source) := draws.below values.length source
    (values.getD index default, source)

/-- Tenths as fractions of 53 bits: the floating point number nearest to each, rounded up. -/
def tenths : Nat → Nat
  | 0 => 0
  | 1 => 900719925474100
  | 2 => 1801439850948199
  | 3 => 2702159776422298
  | 4 => 3602879701896397
  | 5 => 4503599627370496
  | 6 => 5404319552844595
  | 7 => 6305039478318694
  | 8 => 7205759403792794
  | 9 => 8106479329266893
  | _ => 9007199254740992

def chance (draws : Draws Source) (count : Nat) : Gen Source Bool := fun source =>
  let (value, source) := draws.fraction source
  (value < tenths count, source)

def repeated {α : Type} (generate : Gen Source α) : Nat → Gen Source (List α)
  | 0 => return []
  | count + 1 => do
      let first ← generate
      return first :: (← repeated generate count)

end Draws

end TokenSpacing.Corpus
