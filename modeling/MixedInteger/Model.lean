import MixedInteger.Constraint
import MixedInteger.Document
import MixedInteger.LpText
import MixedInteger.Quantity
import MixedInteger.Variable.Naming

/-!
# Models

A model is a document whose names are resolved and whose formulas are evaluated
to linear expressions.  Declarations are read first, then the objective, then
each constraint from left to right; the first fault found in this order is the
one that is reported.
-/

namespace MixedInteger

/-- Why a document is no model. -/
inductive ModelError (R : Type) where
  /-- A product of two symbolic quantities. -/
  | symbolicProduct (product : SymbolicProduct R)
  /-- A name that is not declared, as it was written. -/
  | unknownVariable (name : String)
  /-- A name that is declared a second time, without its blanks. -/
  | duplicateVariable (name : String)

/-- What is said about a fault of a document. -/
def ModelError.message : ModelError Float → String
  | symbolicProduct product =>
    "Invalid operation: cannot multiply `" ++ product.left.text ++ "` by `" ++
      product.right.text ++ "`"
  | unknownVariable name => "Unknown variable: " ++ name
  | duplicateVariable name => "Variable declared twice: " ++ name

/-- A resolved and evaluated document. -/
structure Model (R : Type) where
  direction : Direction
  /-- The declared variables, in the order of their declarations. -/
  vars : List Variable
  objective : Expression R
  constraints : List (Constraint R)

namespace Declaration

/-- The variables of some declarations, given those declared before and their generated names. -/
def resolveFrom {R : Type} : Naming → List Variable → List Declaration →
    Except (ModelError R) (List Variable)
  | _, earlier, [] => .ok earlier.reverse
  | naming, earlier, d :: rest =>
    let (v, naming) := naming.make d.kind d.name
    if earlier.any (·.name == v.name) then .error (.duplicateVariable v.name)
    else resolveFrom naming (v :: earlier) rest

/-- The variables that a list of declarations introduces, each name once. -/
def resolve {R : Type} (declarations : List Declaration) : Except (ModelError R) (List Variable) :=
  resolveFrom .fresh [] declarations

end Declaration

section

variable {R : Type} [Zero R] [One R] [Add R] [Mul R] [Neg R]

/-- The declared variable that a name refers to. -/
def resolveName (scope : List Variable) (text : String) : Option Variable :=
  scope.find? (·.name == Variable.nameOf text)

mutual

/-- The quantity that a formula stands for among some declared variables. -/
def Formula.quantity (scope : List Variable) : Formula R → Except (ModelError R) (Quantity R)
  | .number value => .ok (.number value)
  | .name text =>
    match resolveName scope text with
    | some v => .ok (.symbol v)
    | none => .error (.unknownVariable text)
  | .sum items => Formula.total scope (.number 0) items
  | .difference left right => do
    let a ← left.quantity scope
    let b ← right.quantity scope
    return a.minus b
  | .product left right => do
    let a ← left.quantity scope
    let b ← right.quantity scope
    (a.times b).mapError ModelError.symbolicProduct
  | .opposite inner => do
    let a ← inner.quantity scope
    return a.negated

/-- A quantity with the quantities of some formulas added to it from left to right. -/
def Formula.total (scope : List Variable) (before : Quantity R) :
    List (Formula R) → Except (ModelError R) (Quantity R)
  | [] => .ok before
  | item :: rest => do
    let a ← item.quantity scope
    Formula.total scope (before.plus a) rest

end

def Formula.evaluate (scope : List Variable) (formula : Formula R) :
    Except (ModelError R) (Expression R) :=
  (formula.quantity scope).map Quantity.toExpression

def Requirement.evaluate (scope : List Variable) (requirement : Requirement R) :
    Except (ModelError R) (Constraint R) := do
  let left ← requirement.left.evaluate scope
  let right ← requirement.right.evaluate scope
  return Constraint.between left requirement.relation right

def Requirement.evaluateAll (scope : List Variable) :
    List (Requirement R) → Except (ModelError R) (List (Constraint R))
  | [] => .ok []
  | requirement :: rest => do
    let c ← requirement.evaluate scope
    let cs ← evaluateAll scope rest
    return c :: cs

/-- The model that a document describes. -/
def Document.compile (document : Document R) : Except (ModelError R) (Model R) := do
  let scope ← Declaration.resolve document.declarations
  let objective ← document.objective.evaluate scope
  let constraints ← Requirement.evaluateAll scope document.requirements
  return ⟨document.direction, scope, objective, constraints⟩

end

/-- The variables that the constraints of a model mention. -/
def Model.declared {R : Type} (model : Model R) : VariableSet :=
  Constraint.declared model.constraints

def Model.lpText (model : Model Float) : String :=
  LpText.write model.direction model.objective model.constraints model.declared

end MixedInteger
