import MixedInteger.Decimal
import MixedInteger.Solution
import MixedInteger.Solver.Error
import MixedInteger.Solver.Event
import MixedInteger.Text.Blank
import MixedInteger.Tolerance

/-!
# Reports of solvers

A report lists the value of the objective and values of variables by name.
Reading one starts from every variable of the model at zero and takes the
entries in order.  The first entry without a usable value makes the report
worthless; the first one with a value for a name that is not in the model is an
error of its own.  Whatever of the two comes first decides.

A reader that gives up tells why where it does so; its caller is only told that
there is no solution.
-/

namespace MixedInteger.Report

/-- What a reader gives to its caller, and the events that it tells on the way. -/
structure Reading where
  answer : Answer
  events : List Event

namespace Reading

/-- The reader ends with an answer. -/
def give (answer : Answer) : Reading := ⟨answer, []⟩

/-- The reader tells an event and goes on. -/
def tell (event : Event) (rest : Reading) : Reading := ⟨rest.answer, event :: rest.events⟩

end Reading

/-- A name and its value; where they cannot be used, the way in which the reader ends. -/
abbrev Entry := Except Reading (String × Float)

/-- The finite number that a token is, blanks around it aside. -/
def finite? (token : List Char) : Option Float :=
  match Decimal.literal? (Text.trimmed token) with
  | some literal => if literal.toFloat.isFinite then some literal.toFloat else none
  | none => none

/-- The reading of a report after some of its entries have been taken. -/
def fill (vars : VariableSet) (solution : Solution) : List Entry → Reading
  | [] => .give (.ok (some solution))
  | .error ending :: _ => ending
  | .ok (name, value) :: rest =>
    match vars.find? name with
    | some v => fill vars (solution.set v (Tolerance.snapped value)) rest
    | none => .give (.error (.unknownVariable name))

/-- The reading of a report with a given objective value and entries. -/
def ofEntries (vars : VariableSet) (objective : Float) (entries : List Entry) : Reading :=
  fill vars (Solution.zeroed vars objective) entries

end MixedInteger.Report
