import MixedInteger.Solver.Status

/-!
# Events

What is worth telling about an exchange with a solver.  Events are data; their
levels, messages and fields say how they are shown.
-/

namespace MixedInteger

/-- Why a report gives no solution. -/
inductive Report.Rejection where
  | missing
  /-- The first line is not that of a solved model. -/
  | notOptimal (status : String)
  | noObjectiveLine
  | unusableLine (line : String)
  | malformed
  | noObjective
  | incompleteVariable
  | unusableValue (name value : String)
deriving DecidableEq, Repr

inductive Level where
  | debug
  | info
  | warn
deriving DecidableEq, Repr

def Level.label : Level → String
  | debug => "DEBUG"
  | info => "INFO"
  | warn => "WARN"

/-- A value shown beside a message. -/
inductive Field where
  | count (n : Nat)
  | text (s : String)
deriving DecidableEq, Repr

/-- Something that happened in an exchange. -/
inductive Event where
  | exporting (quiet : Bool) (variableCount constraintCount : Nat)
  | launching (solver : String)
  | launchFailed (solver : String)
  | exitedAbnormally (solver : String) (status : ExitStatus)
  | rejected (why : Report.Rejection)
deriving DecidableEq, Repr

namespace Event

def level : Event → Level
  | exporting quiet _ _ => if quiet then .debug else .info
  | launching _ => .debug
  | launchFailed _ => .warn
  | exitedAbnormally _ _ => .warn
  | rejected _ => .debug

/-- Why a report was rejected, in words. -/
def rejectionMessage : Report.Rejection → String
  | .missing => "no result artifact"
  | .notOptimal _ => "solver did not report an optimal solution"
  | .noObjectiveLine => "missing objective value line"
  | .unusableLine _ => "unparsable solution line"
  | .malformed => "malformed XML solution"
  | .noObjective => "XML solution has no objective value"
  | .incompleteVariable => "variable element without name or value"
  | .unusableValue _ _ => "unparsable variable value"

/-- The message of an event; the counts of a loud export are part of it. -/
def message : Event → String
  | exporting true _ _ => "exporting model"
  | exporting false variableCount constraintCount =>
    "variables: " ++ toString variableCount ++ ", constraints: " ++ toString constraintCount
  | launching _ => "launching solver"
  | launchFailed _ => "failed to launch solver"
  | exitedAbnormally _ _ => "solver exited abnormally"
  | rejected why => rejectionMessage why

def rejectionFields : Report.Rejection → List (String × Field)
  | .notOptimal status => [("status", .text status)]
  | .unusableLine line => [("line", .text line)]
  | .unusableValue name value => [("name", .text name), ("value", .text value)]
  | _ => []

def fields : Event → List (String × Field)
  | exporting true variableCount constraintCount =>
    [("variables", .count variableCount), ("constraints", .count constraintCount)]
  | exporting false _ _ => []
  | launching solver => [("solver", .text solver)]
  | launchFailed solver => [("solver", .text solver)]
  | exitedAbnormally solver status =>
    [("solver", .text solver), ("status", .text status.text)]
  | rejected why => rejectionFields why

end Event

end MixedInteger
