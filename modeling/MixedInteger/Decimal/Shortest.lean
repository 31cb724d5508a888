import MixedInteger.Decimal

/-!
# Shortest decimals

The decimal that is written for a binary64 value is the shortest one that
`Decimal.toFloat` sends back to it, and among those of that length the nearest.
For each length only the two neighbours of the value on the grid of that length
can do this, so that the search tries both, with one digit first.
-/

namespace MixedInteger.Decimal

/-- Which of two decimals that are equally near to a value is written. -/
inductive Tie where
  | up
  | even
deriving DecidableEq, Repr

/-- The number `significand * 2 ^ exponent`. -/
structure Binary where
  significand : Nat
  exponent : Int
deriving DecidableEq, Repr

namespace Binary

/-- The magnitude of a finite binary64 value. -/
def ofFloat (x : Float) : Binary :=
  let bits : Nat := x.toBits.toNat
  let biased : Nat := bits / 0x10000000000000 % 0x800
  let stored : Nat := bits % 0x10000000000000
  if biased = 0 then ⟨stored, -1074⟩ else ⟨0x10000000000000 + stored, (biased : Int) - 1075⟩

def numerator (b : Binary) : Nat :=
  b.significand * Nat.pow 2 b.exponent.toNat

def denominator (b : Binary) : Nat :=
  Nat.pow 2 (-b.exponent).toNat

/-- The least power of ten above the number, for a number other than zero. -/
def scale (b : Binary) : Int :=
  if b.denominator ≤ b.numerator then width (b.numerator / b.denominator)
  else 1 - (width (b.denominator / b.numerator) : Int)

def exactly (b : Binary) : Decimal :=
  if 0 ≤ b.exponent then ⟨false, b.significand * Nat.pow 2 b.exponent.toNat, 0⟩
  else ⟨false, b.significand * Nat.pow 5 (-b.exponent).toNat, b.exponent⟩

/-- The neighbours of the number among the multiples of `10 ^ unit`, the nearer one first. -/
def neighbours (b : Binary) (unit : Int) (tie : Tie) : List Decimal :=
  let dividend := b.numerator * Nat.pow 10 (-unit).toNat
  let divisor := b.denominator * Nat.pow 10 unit.toNat
  let below := dividend / divisor
  let remainder := dividend % divisor
  let lower : Decimal := ⟨false, below, unit⟩
  let upper : Decimal := ⟨false, below + 1, unit⟩
  match compare (2 * remainder) divisor with
  | .lt => [lower, upper]
  | .gt => [upper, lower]
  | .eq => if tie = .even && below % 2 = 0 then [lower, upper] else [upper, lower]

end Binary

/-- Trailing zeros moved into the power of ten, at most `count` of them. -/
def withoutZeros : Nat → Decimal → Decimal
  | 0, d => d
  | count + 1, d =>
    if d.digits ≠ 0 && d.digits % 10 = 0 then
      withoutZeros count ⟨d.negative, d.digits / 10, d.exponent + 1⟩
    else d

/-- The decimal to write for the magnitude of a finite value. -/
def shortestMagnitude (tie : Tie) (x : Float) : Decimal :=
  let b := Binary.ofFloat x
  if b.significand = 0 then ⟨false, 0, 0⟩
  else
    let found := (List.range 17).findSome? fun extra =>
      (b.neighbours (b.scale - (extra + 1 : Nat)) tie).find? fun d =>
        d.toFloat.toBits == x.abs.toBits
    let d := found.getD b.exactly
    withoutZeros (width d.digits) d

def isNegative (x : Float) : Bool :=
  decide (0x8000000000000000 ≤ x.toBits.toNat)

/-- The decimal to write for a finite value, whose zero keeps its sign. -/
def shortest (tie : Tie) (x : Float) : Decimal :=
  let d := shortestMagnitude tie x
  ⟨isNegative x, d.digits, d.exponent⟩

end MixedInteger.Decimal
