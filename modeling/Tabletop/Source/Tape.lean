/-
# Tapes of random words

A tape is an endless row of 64-bit words with a reading position. All draws are made from its
words, so a tape with fair words gives fair draws, and the position is the whole state. The words
are those of a keyed stream, or given ones with a plain generator behind them.
-/

import Tabletop.Source
import Tabletop.Source.ChaCha

namespace Tabletop

/-! ## SplitMix64

A counter that advances by a constant, and a mixing of its value into a word. The word at any
place of the sequence is a function of the seed and the place. -/

namespace SplitMix

def increment : UInt64 := 0x9e3779b97f4a7c15

def mix (z : UInt64) : UInt64 :=
  let z := (z ^^^ (z >>> 30)) * 0xbf58476d1ce4e5b9
  let z := (z ^^^ (z >>> 27)) * 0x94d049bb133111eb
  z ^^^ (z >>> 31)

/-- The `n`-th word after the seed, counted from zero. -/
def word (seed : UInt64) (n : Nat) : UInt64 :=
  mix (seed + UInt64.ofNat (n + 1) * increment)

end SplitMix

/-! ## Tapes -/

structure Tape where
  /-- The word at each place. -/
  word : Nat → UInt64
  /-- How many words have been read. -/
  position : Nat

namespace Tape

/-- The given words, and after them the words that a seed generates. -/
def ofWords (words : Array UInt64) (seed : UInt64) : Tape where
  word n := if h : n < words.size then words[n] else SplitMix.word seed (n - words.size)
  position := 0

/-- The words that belong to a number: the stream of its key. -/
def ofSeed (seed : UInt64) : Tape where
  word := ChaCha.word (ChaCha.keyOfSeed seed)
  position := 0

/-- How often a draw may be rejected before it is given up. At one attempt in a nanosecond this
takes a century. -/
def patience : Nat := Nat.pow 2 62

/-- Read one word. -/
def next {ε : Type} : Attempt ε Tape UInt64 := fun tape =>
  .ok (tape.word tape.position) { tape with position := tape.position + 1 }

/-- The upper 53 bits of a word as a fraction, one excluded. -/
def unitOf (word : UInt64) : Float :=
  (word >>> 11).toFloat * Float.ofBits 0x3ca0000000000000

/-- A fraction from zero, included, to one, excluded. -/
def unit {ε : Type} : Attempt ε Tape Float := do
  return unitOf (← next)

/-- The upper 53 bits of a word as a fraction, zero excluded. -/
def positiveUnit {ε : Type} : Attempt ε Tape Float := do
  let word ← next
  return ((word >>> 11) + 1).toFloat * Float.ofBits 0x3ca0000000000000

/-- A fraction strictly between zero and one, from the upper 52 bits of a word. -/
def openUnit {ε : Type} : Attempt ε Tape Float := do
  let word ← next
  return Float.ofBits ((word >>> 12) ||| 0x3ff0000000000000) - Float.ofBits 0x3fefffffffffffff

/-- How many integers lie between two bounds, both included, as a word: zero stands for all
`2 ^ 64` of them. -/
def span (lo hi : Int64) : UInt64 :=
  (hi - lo + 1).toUInt64

/-- The largest low half of a product that is accepted. The multiples of the span up to the zone
are the largest number of whole rounds through the range that doubling can reach. -/
def zone (span : UInt64) : UInt64 :=
  (span <<< UInt64.ofNat (63 - span.toNat.log2)) - 1

/-- The high half of the product of a word with the span, if its low half is accepted. -/
def accept? (span word : UInt64) : Option UInt64 :=
  let product := word.toNat * span.toNat
  if product % UInt64.size ≤ (zone span).toNat then
    some (UInt64.ofNat (product / UInt64.size))
  else none

/-- Read words until one is accepted. -/
def firstAccepted (span : UInt64) : (allowance : Nat) → Attempt DrawError Tape UInt64
  | 0 => Attempt.giveUp
  | allowance + 1 => do
      match accept? span (← next) with
      | some offset => return offset
      | none => firstAccepted span allowance

def uniformInt (lo hi : Int64) : Attempt DrawError Tape Int64 := do
  if hi < lo then Attempt.fail (.emptyRange lo hi)
  else if span lo hi = 0 then return (← next).toInt64
  else return lo + (← firstAccepted (span lo hi) patience).toInt64

def uniformFloat (lo hi : Float) (tape : Tape) : Float × Tape :=
  (lo + (hi - lo) * unitOf (tape.word tape.position), { tape with position := tape.position + 1 })

def pareto (shape : Float) : Attempt DrawError Tape Float := do
  if 0.0 < shape then return (← positiveUnit).pow (-1.0 / shape)
  else Attempt.fail (.badShape shape)

end Tape

end Tabletop
