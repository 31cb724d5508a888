/-!
# Commands

What can be asked on the command line: to write the text of a model, to solve
it, or to check it.
-/

namespace MixedInteger.CommandLine

inductive Choice where
  | cplex
  | scip
deriving DecidableEq, Repr

/-- The choice of a solver, whether it is to be quiet, and where things are. -/
structure SolveOptions where
  choice : Choice
  quiet : Bool
  /-- The executable of SCIP. -/
  scipPath : String
  /-- The path of the model text, if it is not the usual one. -/
  workFile : Option String
  /-- The form in which a solution is printed. -/
  format : String
deriving DecidableEq, Repr

/-- A command and the model file it is about. -/
inductive Command where
  /-- The text of the model is printed, or written to a path. -/
  | exportModel (file : String) (output : Option String)
  | solve (file : String) (options : SolveOptions)
  | check (file : String)
deriving DecidableEq, Repr

def Command.file : Command → String
  | exportModel file _ => file
  | solve file _ => file
  | check file => file

inductive Request where
  | help
  | run (verbose : Bool) (command : Command)
deriving DecidableEq, Repr

end MixedInteger.CommandLine
