import MixedInteger.Constraint

/-!
# Model text for solvers

The text that a solver reads: a direction, the objective, one labelled line for
each constraint, then the names of the integer variables and of the binary
variables, each under a heading that is left out if there are none.  Headings
start a line and everything below them is indented by two spaces.
-/

namespace MixedInteger.LpText

/-- The lines of a section, none if it has no members. -/
def sectionLines (heading : String) (names : List String) : List String :=
  if names.isEmpty then [] else heading :: names.map fun name => "  " ++ name

def constraintLine (index : Nat) (c : Constraint Float) : String :=
  "  c" ++ String.ofList (Nat.toDigits 10 index) ++ ": " ++ c.text

/-- The lines of the constraints, counted from a given number. -/
def constraintLines : Nat → List (Constraint Float) → List String
  | _, [] => []
  | index, c :: rest => constraintLine index c :: constraintLines (index + 1) rest

def lines (direction : Direction) (objective : Expression Float)
    (constraints : List (Constraint Float)) (declared : VariableSet) : List String :=
  [direction.keyword, "  " ++ objective.text, "subject to"] ++
    constraintLines 0 constraints ++
    sectionLines "general" (declared.namesOfKind .integer) ++
    sectionLines "binary" (declared.namesOfKind .binary) ++
    ["end"]

/-- The text of a model, every line of which ends with a line feed. -/
def write (direction : Direction) (objective : Expression Float)
    (constraints : List (Constraint Float)) (declared : VariableSet) : String :=
  String.join ((lines direction objective constraints declared).map (· ++ "\n"))

end MixedInteger.LpText
