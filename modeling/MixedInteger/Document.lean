import MixedInteger.Relation
import MixedInteger.Variable

/-!
# Model documents

A document describes a model as plain data: declared variables, an objective and
constraints, whose expressions are trees over numbers and names.  Nothing is
resolved or evaluated yet.
-/

namespace MixedInteger

inductive Formula (R : Type) where
  | number (value : R)
  | name (text : String)
  | sum (items : List (Formula R))
  | difference (left right : Formula R)
  | product (left right : Formula R)
  | opposite (inner : Formula R)

/-- A declared variable; one without a name will be given one. -/
structure Declaration where
  name : Option String
  kind : Kind
deriving DecidableEq, Repr

structure Requirement (R : Type) where
  left : Formula R
  relation : Relation
  right : Formula R

structure Document (R : Type) where
  direction : Direction
  declarations : List Declaration
  objective : Formula R
  requirements : List (Requirement R)

mutual

/-- Formulas are equal if they have the same shape, names and numbers. -/
def Formula.same {R : Type} [BEq R] : Formula R → Formula R → Bool
  | .number a, .number b => a == b
  | .name a, .name b => a == b
  | .sum a, .sum b => Formula.sameItems a b
  | .difference a b, .difference c d => a.same c && b.same d
  | .product a b, .product c d => a.same c && b.same d
  | .opposite a, .opposite b => a.same b
  | _, _ => false

/-- Lists of formulas are compared item by item. -/
def Formula.sameItems {R : Type} [BEq R] : List (Formula R) → List (Formula R) → Bool
  | [], [] => true
  | a :: as, b :: bs => a.same b && Formula.sameItems as bs
  | _, _ => false

end

instance {R : Type} [BEq R] : BEq (Formula R) := ⟨Formula.same⟩

instance {R : Type} [BEq R] : BEq (Requirement R) :=
  ⟨fun a b => a.left == b.left && a.relation == b.relation && a.right == b.right⟩

instance {R : Type} [BEq R] : BEq (Document R) :=
  ⟨fun a b => a.direction == b.direction && a.declarations == b.declarations &&
    a.objective == b.objective && a.requirements == b.requirements⟩

end MixedInteger
