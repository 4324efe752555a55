import Labyrinth.Random.Words

/-!
# The key stream

A seed is stretched to a key of eight words by a permuted congruential generator. The key drives the
ChaCha stream cipher with twelve rounds, whose blocks are the random words.
-/

namespace Labyrinth.Random

/-! ## From a seed to a key -/

def rotateRight (x n : UInt32) : UInt32 := x >>> n ||| x <<< ((32 - n) % 32)

def rotateLeft (x n : UInt32) : UInt32 := x <<< n ||| x >>> ((32 - n) % 32)

def advanceSeed (s : UInt64) : UInt64 := s * 6364136223846793005 + 11634580027462260723

/-- The word that a state of the generator gives: the top bits choose how far the rest is turned. -/
def seedWord (s : UInt64) : UInt32 :=
  rotateRight (((s >>> 18) ^^^ s) >>> 27).toUInt32 (s >>> 59).toUInt32

def seedWords : Nat → UInt64 → List UInt32
  | 0, _ => []
  | n + 1, s => let s := advanceSeed s; seedWord s :: seedWords n s

def keyOfSeed (seed : UInt64) : List UInt32 := seedWords 8 seed

/-! ## A block -/

def quarterRound (a b c d : Fin 16) (w : Vector UInt32 16) : Vector UInt32 16 :=
  let x₀ := w[a] + w[b]
  let y₀ := rotateLeft (w[d] ^^^ x₀) 16
  let z₀ := w[c] + y₀
  let t₀ := rotateLeft (w[b] ^^^ z₀) 12
  let x₁ := x₀ + t₀
  let y₁ := rotateLeft (y₀ ^^^ x₁) 8
  let z₁ := z₀ + y₁
  let t₁ := rotateLeft (t₀ ^^^ z₁) 7
  (((w.set a x₁).set b t₁).set c z₁).set d y₁

/-- One round on the columns and one on the diagonals. -/
def doubleRound (w : Vector UInt32 16) : Vector UInt32 16 :=
  let w := quarterRound 0 4 8 12 w
  let w := quarterRound 1 5 9 13 w
  let w := quarterRound 2 6 10 14 w
  let w := quarterRound 3 7 11 15 w
  let w := quarterRound 0 5 10 15 w
  let w := quarterRound 1 6 11 12 w
  let w := quarterRound 2 7 8 13 w
  quarterRound 3 4 9 14 w

/-- The first four words of every block's input. -/
def constants : List UInt32 := [0x61707865, 0x3320646e, 0x79622d32, 0x6b206574]

/-- Constants, key, the number of the block and a nonce of zero. -/
def blockInput (key : List UInt32) (number : UInt64) : Vector UInt32 16 :=
  Vector.ofFn fun i =>
    (constants ++ key ++ [number.toUInt32, (number >>> 32).toUInt32, 0, 0]).getD i 0

def block (key : List UInt32) (number : UInt64) : Vector UInt32 16 :=
  let input := blockInput key number
  let mixed := Nat.repeat doubleRound 6 input
  Vector.zipWith (· + ·) mixed input

/-! ## The stream -/

/-- A place in the stream of a key: the words left of the block before `number`. -/
structure KeyStream where
  key : List UInt32
  number : UInt64
  left : List UInt32

def KeyStream.ofSeed (seed : UInt64) : KeyStream := ⟨keyOfSeed seed, 0, []⟩

def KeyStream.next (s : KeyStream) : UInt32 × KeyStream :=
  match s.left with
  | w :: left => (w, { s with left })
  | [] =>
    match (block s.key s.number).toList with
    | w :: left => (w, { s with number := s.number + 1, left })
    | [] => (0, s)

def keyStream : Source KeyStream := ⟨KeyStream.next⟩

end Labyrinth.Random
