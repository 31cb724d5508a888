import MixedInteger.Expression

/-!
# Quantities

A quantity is what a subtree of a model text stands for: a number, a variable
or an expression.  Quantities can always be added, subtracted and negated; a
product needs a number on one side at least, since a product of two symbolic
quantities is not linear.
-/

namespace MixedInteger

inductive Quantity (R : Type) where
  | number (value : R)
  | symbol (v : Variable)
  | expression (e : Expression R)

/-- Two symbolic quantities that were to be multiplied, as expressions. -/
structure SymbolicProduct (R : Type) where
  left : Expression R
  right : Expression R

namespace Quantity

variable {R : Type} [Zero R] [One R] [Add R] [Mul R] [Neg R]

def toExpression : Quantity R → Expression R
  | number value => Expression.ofConstant value
  | symbol v => Expression.ofVariable v
  | expression e => e

/-- The quantity is not a number, even if it is an expression without terms. -/
def isSymbolic : Quantity R → Bool
  | number _ => false
  | _ => true

/-- The sum of two quantities, which is a number if both are. -/
def plus : Quantity R → Quantity R → Quantity R
  | number a, number b => number (a + b)
  | a, b => expression (a.toExpression + b.toExpression)

def negated : Quantity R → Quantity R
  | number a => number (-a)
  | a => expression (-a.toExpression)

def minus (a b : Quantity R) : Quantity R := a.plus b.negated

/-- The product of two quantities, one of which has to be a number. -/
def times : Quantity R → Quantity R → Except (SymbolicProduct R) (Quantity R)
  | number a, number b => .ok (number (a * b))
  | number factor, b => .ok (expression (b.toExpression * factor))
  | a, number factor => .ok (expression (a.toExpression * factor))
  | a, b => .error ⟨a.toExpression, b.toExpression⟩

end Quantity

end MixedInteger
