/-!
The Mersenne Twister: a sequence of 32-bit words that a seed determines.
-/

namespace TokenSpacing.Corpus

/-- The words of one round, and how many of them have been used. -/
structure Twister where
  words : Array UInt32
  used : Nat

namespace Twister

def size : Nat := 624

def distance : Nat := 397

def word (words : Array UInt32) (index : Nat) : UInt32 :=
  words.getD index 0

def fold (value : UInt32) : UInt32 :=
  value ^^^ (value >>> 30)

/-! ## Seeds -/

def ofWord (seed : UInt32) : Array UInt32 :=
  (List.range (size - 1)).foldl
    (fun words index =>
      words.push (1812433253 * fold (word words index) + (index + 1).toUInt32))
    #[seed]

structure Mixing where
  words : Array UInt32
  index : Nat

namespace Mixing

/-- Replaces the word at the index and goes on to the next; the last word is also the
one before the second. -/
def step (mixing : Mixing) (change : UInt32 → UInt32 → UInt32) : Mixing :=
  let mixed := change (fold (word mixing.words (mixing.index - 1))) (word mixing.words mixing.index)
  let words := mixing.words.setIfInBounds mixing.index mixed
  if mixing.index + 1 < size then ⟨words, mixing.index + 1⟩
  else ⟨words.setIfInBounds 0 (word words (size - 1)), 1⟩

end Mixing

def ofWords (seed : Array UInt32) : Twister :=
  let start : Mixing := ⟨ofWord 19650218, 1⟩
  let mixed := (List.range (max size seed.size)).foldl (fun (mixing : Mixing) turn =>
    let position := turn % seed.size
    mixing.step fun before value =>
      (value ^^^ (before * 1664525)) + word seed position + position.toUInt32) start
  let mixed := (List.range (size - 1)).foldl (fun (mixing : Mixing) _ =>
    mixing.step fun before value =>
      (value ^^^ (before * 1566083941)) - mixing.index.toUInt32) mixed
  ⟨mixed.words.setIfInBounds 0 0x80000000, size⟩

def wordsOf (number : Nat) : List UInt32 :=
  if number < 0x100000000 then [number.toUInt32]
  else number.toUInt32 :: wordsOf (number / 0x100000000)
termination_by number
decreasing_by exact Nat.div_lt_self (by omega) (by omega)

def ofSeed (seed : Int) : Twister :=
  ofWords (wordsOf seed.natAbs).toArray

/-! ## Words -/

def nextRound (words : Array UInt32) : Array UInt32 :=
  (List.range size).foldl (fun words index =>
    let joined := (word words index &&& 0x80000000) |||
      (word words ((index + 1) % size) &&& 0x7fffffff)
    let twisted := (joined >>> 1) ^^^ (if joined &&& 1 == 1 then 0x9908b0df else 0)
    words.setIfInBounds index (word words ((index + distance) % size) ^^^ twisted)) words

def temper (value : UInt32) : UInt32 :=
  let value := value ^^^ (value >>> 11)
  let value := value ^^^ ((value <<< 7) &&& 0x9d2c5680)
  let value := value ^^^ ((value <<< 15) &&& 0xefc60000)
  value ^^^ (value >>> 18)

def next (twister : Twister) : UInt32 × Twister :=
  if twister.used < size then
    (temper (word twister.words twister.used), { twister with used := twister.used + 1 })
  else
    let words := nextRound twister.words
    (temper (word words 0), ⟨words, 1⟩)

end Twister

end TokenSpacing.Corpus
