import MixedInteger.Quantity

/-!
# Arguments of operations

What stands beside an operator may be an expression, a variable or a number.  Sums and
differences need an expression or a variable on one side, and a whole number only stands
on the right; a product needs a real number on its other side.  Quantities have operations
of their own and stand beside no operator.
-/

namespace MixedInteger

/-- What the operations on linear expressions take and give. -/
inductive Argument where
  | real (value : Float)
  | whole (value : Int32)
  | symbol (v : Variable)
  | expression (e : Expression Float)
  | quantity (q : Quantity Float)

namespace Argument

/-- The expression that an argument stands for. -/
def toExpression : Argument → Expression Float
  | real value => .ofConstant value
  | whole value => .ofConstant value.toFloat
  | symbol v => .ofVariable v
  | expression e => e
  | quantity q => q.toExpression

/-- The quantity that an argument stands for; there is none for a whole number. -/
def toQuantity? : Argument → Option (Quantity Float)
  | real value => some (.number value)
  | whole _ => none
  | symbol v => some (.symbol v)
  | expression e => some (.expression e)
  | quantity q => some q

/-- The sum of two arguments, if an operator joins them. -/
def plus? : Argument → Argument → Option (Expression Float)
  | _, quantity _ => none
  | symbol v, b => some (.ofVariable v + b.toExpression)
  | expression e, b => some (e + b.toExpression)
  | real x, symbol v => some (x + (.ofVariable v : Expression Float))
  | real x, expression e => some (x + e)
  | _, _ => none

/-- The difference of two arguments, if an operator joins them. -/
def minus? : Argument → Argument → Option (Expression Float)
  | _, quantity _ => none
  | symbol v, b => some (.ofVariable v - b.toExpression)
  | expression e, b => some (e - b.toExpression)
  | real x, symbol v => some (x - (.ofVariable v : Expression Float))
  | real x, expression e => some (x - e)
  | _, _ => none

/-- The product of two arguments, if an operator joins them. -/
def times? : Argument → Argument → Option (Expression Float)
  | symbol v, real x => some ((.ofVariable v : Expression Float) * x)
  | expression e, real x => some (e * x)
  | real x, symbol v => some (x * (.ofVariable v : Expression Float))
  | real x, expression e => some (x * e)
  | _, _ => none

/-- The argument with a minus sign, if it has such an operator. -/
def negated? : Argument → Option (Expression Float)
  | symbol v => some (-.ofVariable v)
  | expression e => some (-e)
  | _ => none

/-- The argument with a plus sign, if it has such an operator. -/
def posited? : Argument → Option (Expression Float)
  | symbol v => some (.ofVariable v)
  | expression e => some e
  | _ => none

end Argument

end MixedInteger
