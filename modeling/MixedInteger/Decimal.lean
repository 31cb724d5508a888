/-!
# Decimal numbers

A decimal is a sign, a natural number of units and a power of ten.  `toFloat`
is the binary64 value nearest to it, a half going to the even neighbour, with
values beyond the largest finite number becoming infinite.  A literal is first
split into its parts; the two grammars that models and reports use, `literal`
for the numbers of a solver's report and `strict` for those of a model text,
are conditions on those parts.
-/

namespace MixedInteger

/-- The number `digits * 10 ^ exponent`, negated when `negative` holds. -/
structure Decimal where
  negative : Bool
  digits : Nat
  exponent : Int
deriving DecidableEq, Repr

namespace Decimal

/-- How many decimal digits a natural number is written with. -/
def width (n : Nat) : Nat :=
  (Nat.toDigits 10 n).length

/--
The nearest binary64 value to `digits * 10 ^ exponent`.  Below `10 ^ -324` all
of them are nearest to zero, and from `10 ^ 309` on all of them are infinite,
so that no power of ten outside this range is ever computed.
-/
def magnitude (digits : Nat) (exponent : Int) : Float :=
  if digits = 0 then 0.0
  else if 309 < width digits + exponent then Float.ofBits 0x7FF0000000000000
  else if width digits + exponent < -323 then 0.0
  else Float.ofScientific digits (decide (exponent < 0)) exponent.natAbs

def toFloat (d : Decimal) : Float :=
  if d.negative then -magnitude d.digits d.exponent else magnitude d.digits d.exponent

def ofDigits (digits : List Char) : Nat :=
  digits.foldl (fun n c => 10 * n + (c.toNat - '0'.toNat)) 0

/-- The parts of an unsigned literal: digits, digits after a point, power of ten. -/
structure Parts where
  whole : List Char
  fraction : Option (List Char)
  exponent : Int
deriving DecidableEq, Repr

namespace Parts

/-- The power of ten after its mark, which is an optional sign and at least one digit. -/
def exponent? (text : List Char) : Option Int :=
  let (negative, digits) := match text with
    | '-' :: rest => (true, rest)
    | '+' :: rest => (false, rest)
    | rest => (false, rest)
  if digits.isEmpty || !digits.all Char.isDigit then none
  else if negative then some (-(ofDigits digits : Int)) else some (ofDigits digits)

/-- What follows the digits of a literal: nothing, or a mark and a power of ten. -/
def tail? : List Char → Option Int
  | [] => some 0
  | c :: rest => if c = 'e' || c = 'E' then exponent? rest else none

/-- The parts of a text that is a literal, with any number of digits in each part. -/
def ofText? (text : List Char) : Option Parts :=
  let whole := text.takeWhile Char.isDigit
  match text.dropWhile Char.isDigit with
  | '.' :: rest =>
    (tail? (rest.dropWhile Char.isDigit)).map fun exponent =>
      ⟨whole, some (rest.takeWhile Char.isDigit), exponent⟩
  | rest => (tail? rest).map fun exponent => ⟨whole, none, exponent⟩

/-- The number that the parts stand for, with the sign that stood before them. -/
def toDecimal (parts : Parts) (negative : Bool) : Decimal :=
  let fraction := parts.fraction.getD []
  ⟨negative, ofDigits (parts.whole ++ fraction), parts.exponent - fraction.length⟩

def hasDigits (parts : Parts) : Bool :=
  !(parts.whole ++ parts.fraction.getD []).isEmpty

/-- A single zero or a digit other than zero leads, and a point is followed by digits. -/
def isStrict (parts : Parts) : Bool :=
  (parts.whole == ['0'] || (!parts.whole.isEmpty && parts.whole.head? != some '0')) &&
    parts.fraction != some []

end Parts

/-- The text without its sign, and whether the sign was a minus. -/
def unsigned : List Char → Bool × List Char
  | '-' :: rest => (true, rest)
  | '+' :: rest => (false, rest)
  | rest => (false, rest)

/-- A finite number, an infinity or no number at all. -/
inductive Literal where
  | finite (value : Decimal)
  | infinite (negative : Bool)
  | notANumber
deriving DecidableEq, Repr

def Literal.toFloat : Literal → Float
  | .finite value => value.toFloat
  | .infinite negative =>
    Float.ofBits (if negative then 0xFFF0000000000000 else 0x7FF0000000000000)
  | .notANumber => Float.ofBits 0x7FF8000000000000

/--
The permissive grammar: an optional sign, then digits of which some may follow
a point, then an optional power of ten; or the words `inf`, `infinity` and
`nan` in any case.
-/
def literal? (text : List Char) : Option Literal :=
  let (negative, rest) := unsigned text
  let word := rest.map Char.toLower
  if word == "inf".toList || word == "infinity".toList then some (.infinite negative)
  else if word == "nan".toList then some .notANumber
  else match Parts.ofText? rest with
    | some parts => if parts.hasDigits then some (.finite (parts.toDecimal negative)) else none
    | none => none

/-- The strict grammar: no plus sign, no superfluous zero, digits on both sides of a point. -/
def strict? (text : List Char) : Option Decimal :=
  let (negative, rest) := match text with
    | '-' :: rest => (true, rest)
    | rest => (false, rest)
  match Parts.ofText? rest with
  | some parts => if parts.isStrict then some (parts.toDecimal negative) else none
  | none => none

end Decimal

end MixedInteger
