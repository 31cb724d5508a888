import MixedInteger.Decimal.Shortest

/-!
# Styles of written numbers

A style says how the digits of a decimal are laid out: which powers of ten are
written positionally, whether a whole number shows its point, whether a
positive power of ten carries a plus sign, and which of two equally near
decimals is chosen.  A module that writes numbers owns one style.
-/

namespace MixedInteger.Decimal

/-- The decisions of one number format. -/
structure Style where
  /-- The exponents of the leading digit for which no power of ten is written. -/
  positional : Int → Bool
  /-- A whole number is written with `.0`. -/
  pointed : Bool
  /-- A positive power of ten is written with its sign. -/
  plus : Bool
  tie : Tie

namespace Style

/-- Digits around a point that stands `place` digits from their left end. -/
def positionalText (style : Style) (digits : List Char) (place : Int) : List Char :=
  if place ≤ 0 then
    '0' :: '.' :: (List.replicate (-place).toNat '0' ++ digits)
  else
    let count := place.toNat
    if count < digits.length then digits.take count ++ '.' :: digits.drop count
    else
      digits ++ List.replicate (count - digits.length) '0' ++
        (if style.pointed then ['.', '0'] else [])

/-- Digits with the point after the first of them, and a power of ten. -/
def exponentText (style : Style) (digits : List Char) (exponent : Int) : List Char :=
  let fraction := if digits.length ≤ 1 then [] else '.' :: digits.drop 1
  let sign := if exponent < 0 then ['-'] else if style.plus then ['+'] else []
  digits.take 1 ++ fraction ++ 'e' :: sign ++ Nat.toDigits 10 exponent.natAbs

/-- The text of a decimal, its sign in front. -/
def textOf (style : Style) (d : Decimal) : List Char :=
  let digits := Nat.toDigits 10 d.digits
  let place := if d.digits = 0 then 1 else d.exponent + digits.length
  let text :=
    if style.positional (place - 1) then style.positionalText digits place
    else style.exponentText digits (place - 1)
  if d.negative then '-' :: text else text

def write (style : Style) (x : Float) : String :=
  if x.isNaN then "NaN"
  else if x.isInf then (if isNegative x then "-inf" else "inf")
  else String.ofList (style.textOf (shortest style.tie x))

end Style

end MixedInteger.Decimal
