/-
# ChaCha with twelve rounds

A keyed stream of words, cut into blocks of sixteen 32-bit words. Each block depends on the key
and on its number only, so the word at any place can be found without the ones before it. Numbers
are turned into keys by a small permuted congruential generator.
-/

namespace Tabletop.ChaCha

abbrev Block := Vector UInt32 16

abbrev Key := Vector UInt32 8

def rotateLeft (x : UInt32) (n : UInt32) : UInt32 :=
  (x <<< n) ||| (x >>> (32 - n))

/-- Add `b` to `a`, then mix the sum into `d` and rotate it. -/
def addMix (a b d : Fin 16) (n : UInt32) (s : Block) : Block :=
  let sum := s[a] + s[b]
  (s.set a sum).set d (rotateLeft (s[d] ^^^ sum) n)

def quarterRound (a b c d : Fin 16) (s : Block) : Block :=
  addMix c d b 7 (addMix a b d 8 (addMix c d b 12 (addMix a b d 16 s)))

/-- A round over the columns of the four by four square, then one over its diagonals. -/
def doubleRound (s : Block) : Block :=
  let s := quarterRound 0 4 8 12 s
  let s := quarterRound 1 5 9 13 s
  let s := quarterRound 2 6 10 14 s
  let s := quarterRound 3 7 11 15 s
  let s := quarterRound 0 5 10 15 s
  let s := quarterRound 1 6 11 12 s
  let s := quarterRound 2 7 8 13 s
  quarterRound 3 4 9 14 s

/-- The square before the rounds: four constants, the key, the block's number in two words, and a
stream number of zero. -/
def initialBlock (key : Key) (number : Nat) : Block :=
  #v[0x61707865, 0x3320646e, 0x79622d32, 0x6b206574,
    key[0], key[1], key[2], key[3], key[4], key[5], key[6], key[7],
    UInt32.ofNat number, UInt32.ofNat (number / UInt32.size), 0, 0]

def block (key : Key) (number : Nat) : Block :=
  let start := initialBlock key number
  let mixed := Nat.repeat doubleRound 6 start
  Vector.zipWith (· + ·) mixed start

/-- The `n`-th 64-bit word of the stream, the first half of a pair being the low one. -/
def word (key : Key) (n : Nat) : UInt64 :=
  let words := block key (n / 8)
  let low := words.toArray.getD (2 * (n % 8)) 0
  let high := words.toArray.getD (2 * (n % 8) + 1) 0
  low.toUInt64 ||| (high.toUInt64 <<< 32)

/-- One step of the generator of keys. -/
def keyState (state : UInt64) : UInt64 :=
  state * 6364136223846793005 + 11634580027462260723

/-- The word that a state of the generator of keys yields. -/
def keyWord (state : UInt64) : UInt32 :=
  let x := (((state >>> 18) ^^^ state) >>> 27).toUInt32
  let n := (state >>> 59).toUInt32
  (x >>> n) ||| (x <<< ((32 - n) % 32))

/-- The key that a number stands for. -/
def keyOfSeed (seed : UInt64) : Key :=
  Vector.ofFn fun i => keyWord (Nat.repeat keyState (i.val + 1) seed)

end Tabletop.ChaCha
