import MixedInteger.Expression.Text
import MixedInteger.Relation
import MixedInteger.Variable.Set

/-!
# Constraints

A constraint compares an expression without constant to a number: everything
symbolic stands on its left side and every constant on its right.
-/

namespace MixedInteger

/-- A linear expression without constant, a relation and a bound. -/
structure Constraint (R : Type) where
  left : Expression R
  relation : Relation
  right : R

namespace Constraint

variable {R : Type}

/--
The constraint between two expressions.  The difference of the sides keeps its
terms, and its constant moves to the right with the opposite sign; the zero
that is added there leaves no negative zero as a bound.
-/
def between [Zero R] [One R] [Add R] [Mul R] [Neg R]
    (left : Expression R) (relation : Relation) (right : Expression R) : Constraint R :=
  let difference := left - right
  ⟨difference.withoutConstant, relation, -difference.constant + 0⟩

/-- The variables of the left side, those with zero coefficients included. -/
def vars (c : Constraint R) : List Variable :=
  c.left.vars

instance [BEq R] : BEq (Constraint R) :=
  ⟨fun a b => a.left == b.left && a.relation == b.relation && a.right == b.right⟩

def text (c : Constraint Float) : String :=
  c.left.text ++ " " ++ c.relation.token ++ " " ++ Expression.numberText c.right

/--
The variables that the left sides of some constraints mention.  Of several
variables with one name the last is kept.
-/
def declared (constraints : List (Constraint R)) : VariableSet :=
  VariableSet.collect (constraints.flatMap vars)

end Constraint

end MixedInteger
