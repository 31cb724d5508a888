import MixedInteger.Decimal.Style
import MixedInteger.Expression
import MixedInteger.Tolerance

/-!
# Text of linear expressions

The terms of an expression are written in the order of their names, without
those whose coefficients count as zero, and the constant follows unless it
counts as zero.  Each part after the first starts with its sign; the first part
has a sign only if it is negative.  Parts are separated by single spaces.
-/

namespace MixedInteger.Expression

/--
Numbers of a model have a fraction or a power of ten; they are positional from
one ten-thousandth up to ten thousand million million.
-/
def numberStyle : Decimal.Style where
  positional exponent := decide (-4 ≤ exponent ∧ exponent < 16)
  pointed := true
  plus := false
  tie := .up

def numberText (x : Float) : String := numberStyle.write x

/-- The sign in front of a part, which a positive first part does without. -/
def signText (value : Float) (first : Bool) : String :=
  if !first || value < 0.0 then (if 0.0 < value then "+ " else "- ") else ""

/-- The text of one term; a coefficient that counts as one is left out. -/
def termText (first : Bool) (v : Variable) (coefficient : Float) : String :=
  signText coefficient first ++
    (if Tolerance.isNearUnit coefficient then "" else numberText coefficient.abs ++ " ") ++ v.name

def constantText (first : Bool) (constant : Float) : String :=
  signText constant first ++ numberText constant.abs

/-- The terms whose coefficients do not count as zero. -/
def significantTerms (a : Expression Float) : List (Variable × Float) :=
  a.terms.entries.filter fun p => !Tolerance.isNearZero p.2

/-- The texts of the parts of an expression, in order. -/
def parts (a : Expression Float) : List String :=
  let terms := match a.significantTerms with
    | [] => []
    | p :: rest => termText true p.1 p.2 :: rest.map fun q => termText false q.1 q.2
  if Tolerance.isNearZero a.constant then terms
  else terms ++ [constantText terms.isEmpty a.constant]

def text (a : Expression Float) : String :=
  " ".intercalate a.parts

end MixedInteger.Expression
