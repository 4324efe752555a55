/-!
# Shortest decimals

A binary floating-point number stands for all reals that round to it. Among the decimals with the
fewest digits in that interval the one nearest to the number is its shortest decimal.
-/

namespace Labyrinth.Decimal

/-! ## Binary formats -/

/-- How many bits of a word hold the fraction and how many the exponent. -/
structure Layout where
  fractionBits : Nat
  exponentBits : Nat

def Layout.double : Layout := ⟨52, 11⟩

def Layout.single : Layout := ⟨23, 8⟩

structure Fields where
  negative : Bool
  exponent : Nat
  fraction : Nat

def Layout.fields (l : Layout) (bits : Nat) : Fields :=
  ⟨decide ((bits >>> (l.fractionBits + l.exponentBits)) % 2 = 1),
    (bits >>> l.fractionBits) % (1 <<< l.exponentBits), bits % (1 <<< l.fractionBits)⟩

/-- Infinities and words that are no number have the largest exponent. -/
def Layout.isFinite (l : Layout) (f : Fields) : Bool :=
  decide (f.exponent + 1 < 1 <<< l.exponentBits)

/-- The magnitude `significand * 2 ^ scale`. Below a power of two the next number is only half as
far away as above it. -/
structure Magnitude where
  significand : Nat
  scale : Int
  nearBelow : Bool

def Layout.magnitude (l : Layout) (f : Fields) : Magnitude :=
  let bias : Int := ((1 <<< (l.exponentBits - 1)) - 1 + l.fractionBits : Nat)
  if f.exponent = 0 then ⟨f.fraction, 1 - bias, false⟩
  else ⟨(1 <<< l.fractionBits) + f.fraction, f.exponent - bias,
    decide (f.fraction = 0) && decide (1 < f.exponent)⟩

/-! ## The interval -/

/-- A magnitude and the ends of its interval, as numerators of one denominator. -/
structure Interval where
  low : Nat
  value : Nat
  high : Nat
  denominator : Nat
  closed : Bool

/-- The ends lie half way to the next numbers. -/
def Magnitude.interval (m : Magnitude) : Interval :=
  let up := (m.scale - 2).toNat
  let down := (2 - m.scale).toNat
  let unit := 1 <<< up
  ⟨(4 * m.significand - if m.nearBelow then 1 else 2) * unit, 4 * m.significand * unit,
    (4 * m.significand + 2) * unit, 1 <<< down, decide (m.significand % 2 = 0)⟩

def Interval.shifted (i : Interval) (places : Int) : Interval :=
  let up := Nat.pow 10 places.toNat
  let down := Nat.pow 10 (-places).toNat
  { i with
    low := i.low * up
    value := i.value * up
    high := i.high * up
    denominator := i.denominator * down }

def Interval.holds (i : Interval) (n : Nat) : Bool :=
  if i.closed then decide (i.low ≤ n * i.denominator) && decide (n * i.denominator ≤ i.high)
  else decide (i.low < n * i.denominator) && decide (n * i.denominator < i.high)

/-- The whole number in the interval that is nearest to the value, of its two neighbours. A tie goes
to the even one. -/
def Interval.nearest (i : Interval) : Option Nat :=
  let below := i.value / i.denominator
  let rest := i.value % i.denominator
  let upper := decide (i.denominator < 2 * rest) ||
    decide (2 * rest = i.denominator) && decide (below % 2 = 1)
  let first := if upper then below + 1 else below
  let second := if upper then below else below + 1
  if i.holds first then some first else if i.holds second then some second else none

/-! ## Digits -/

/-- The decimal `digits * 10 ^ exponent`. -/
structure Digits where
  digits : Nat
  exponent : Int
deriving DecidableEq

def Digits.stripped : Nat → Digits → Digits
  | 0, d => d
  | fuel + 1, d =>
    if d.digits ≠ 0 ∧ d.digits % 10 = 0 then stripped fuel ⟨d.digits / 10, d.exponent + 1⟩ else d

/-- The first decimal on ever finer grids that lies in the interval. -/
def search (i : Interval) : Nat → Int → Option Digits
  | 0, _ => none
  | fuel + 1, place =>
    match (i.shifted (-place)).nearest with
    | some n => if n = 0 then search i fuel (place - 1) else some ⟨n, place⟩
    | none => search i fuel (place - 1)

/-- The shortest decimal of a magnitude that is not zero. The search starts on a grid that is
coarser than any number and is sure to end on a grid that is finer than the smallest one. -/
def Magnitude.shortest (m : Magnitude) : Digits :=
  match search m.interval 700 310 with
  | some d => d.stripped 20
  | none => ⟨0, 0⟩

/-! ## Notation -/

/-- Where positional notation is used: the decimal point may stand up to `most` places after the
first digit's place and down to `least` places before it. -/
structure Style where
  least : Int
  most : Int

def Style.double : Style := ⟨-5, 16⟩

def Style.single : Style := ⟨-6, 13⟩

def zeros (n : Nat) : String := String.ofList (List.replicate n '0')

/-- Positional notation always has a decimal point. Otherwise the first digit stands before the
point, the rest after it, and an exponent follows. -/
def Style.text (f : Style) (d : Digits) : String :=
  let ds := toString d.digits
  let point : Int := ds.length + d.exponent
  if 0 ≤ d.exponent ∧ point ≤ f.most then ds ++ zeros d.exponent.toNat ++ ".0"
  else if 0 < point ∧ point ≤ f.most then
    String.ofList (ds.toList.take point.toNat) ++ "." ++ String.ofList (ds.toList.drop point.toNat)
  else if f.least < point ∧ point ≤ 0 then "0." ++ zeros (-point).toNat ++ ds
  else if ds.length = 1 then ds ++ "e" ++ toString (point - 1)
  else String.ofList (ds.toList.take 1) ++ "." ++ String.ofList (ds.toList.drop 1) ++ "e" ++
    toString (point - 1)

/-- The text of a word, or nothing if it is not a finite number. -/
def textOf? (l : Layout) (f : Style) (bits : Nat) : Option String :=
  let fields := l.fields bits
  let m := l.magnitude fields
  if l.isFinite fields then
    some ((if fields.negative then "-" else "") ++
      if m.significand = 0 then "0.0" else f.text m.shortest)
  else none

def doubleText? (x : Float) : Option String := textOf? .double .double x.toBits.toNat

def singleText? (x : Float32) : Option String := textOf? .single .single x.toBits.toNat

end Labyrinth.Decimal
