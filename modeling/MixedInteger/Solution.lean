import MixedInteger.Variable.Set

/-!
# Solutions

A solution gives a value to every variable of a set, zero where nothing else was
reported.  A variable that is set under a name already present keeps the stored
variable and takes the new value.
-/

namespace MixedInteger

/-- The value of the objective and of each variable. -/
structure Solution where
  objective : Float
  values : Table Variable Float

/-- The values of a solution by the names of its variables. -/
structure Summary where
  objective : Float
  values : Table String Float

namespace Solution

/-- Every variable of a set at zero. -/
def zeroed (vars : VariableSet) (objective : Float) : Solution :=
  ⟨objective, vars.map fun _ => 0.0⟩

def set (solution : Solution) (v : Variable) (value : Float) : Solution :=
  { solution with values := solution.values.set v value }

/-- The value of a variable, if its name is present. -/
def get? (solution : Solution) (v : Variable) : Option Float :=
  solution.values.value? v.name

/-- The value of a variable that has to be there; where it is not, the message of the failure. -/
def index (solution : Solution) (v : Variable) : Except String Float :=
  match solution.get? v with
  | some value => .ok value
  | none => .error "no entry found for key"

def size (solution : Solution) : Nat :=
  solution.values.size

def byName (solution : Solution) : Table String Float :=
  solution.values.rekey Variable.name fun _ => rfl

/-- The solution without the kinds of its variables. -/
def summary (solution : Solution) : Summary :=
  ⟨solution.objective, solution.byName⟩

end Solution

/-- Summaries are compared name by name. -/
instance : BEq Summary :=
  ⟨fun a b => a.objective == b.objective && a.values == b.values⟩

end MixedInteger
