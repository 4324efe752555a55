/-!
# Random words

A source of random words hands out 32-bit words one at a time. A choice among `n` things draws words
until one falls into the part of the range that `n` divides evenly, so that no choice is favoured.
-/

namespace Labyrinth.Random

/-- A source of 32-bit words with states in `σ`. -/
structure Source (σ : Type) where
  next : σ → UInt32 × σ

/-! ## Choosing evenly -/

/-- The largest multiple of `n` by a power of two that fits into 32 bits, less one. -/
def zone (n : Nat) : Nat := (n <<< (31 - n.log2)) - 1

/-- The word is used for a choice among `n` things if its low product half lies in the zone. -/
def accepts (n : Nat) (word : UInt32) : Bool := decide (word.toNat * n % UInt32.size ≤ zone n)

/-- The high half of the product of the word and `n`. -/
def indexOf (n : Nat) (word : UInt32) : Nat := word.toNat * n / UInt32.size

theorem indexOf_lt (n : Nat) (h : 0 < n) (word : UInt32) : indexOf n word < n := by
  have hw : word.toNat < UInt32.size := word.toNat_lt
  rw [indexOf, Nat.div_lt_iff_lt_mul (by decide), Nat.mul_comm n]
  exact (Nat.mul_lt_mul_right h).2 hw

/-- Draws words until one is accepted, at most `patience` refused ones. -/
def Source.draw {σ : Type} (source : Source σ) (n : Nat) : Nat → σ → UInt32 × σ
  | 0, s => source.next s
  | patience + 1, s =>
    let (word, s) := source.next s
    if accepts n word then (word, s) else source.draw n patience s

/-- How many refused words a choice puts up with. At least every second word is accepted in the long
run, so a source of random words never comes near it. -/
def patience : Nat := 100000

def Source.choose {σ : Type} (source : Source σ) (n : Nat) (s : σ) : Fin (n + 1) × σ :=
  let (word, s) := source.draw (n + 1) patience s
  (⟨indexOf (n + 1) word, indexOf_lt (n + 1) (Nat.succ_pos n) word⟩, s)

/-! ## A list of words, repeated -/

/-- Words that repeat for ever, with the number of words handed out. -/
structure Cycle where
  words : Array UInt32
  drawn : Nat := 0

def cycle : Source Cycle where
  next c := (c.words.getD (c.drawn % c.words.size) 0, { c with drawn := c.drawn + 1 })

end Labyrinth.Random
