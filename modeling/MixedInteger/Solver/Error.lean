import MixedInteger.FileSystem
import MixedInteger.Solution

/-!
# Answers of solvers

A solve ends with a solution, without one, or with an error.
-/

namespace MixedInteger

/-- Why a solve ends without an answer. -/
inductive SolveError where
  | file (error : FileError)
  /-- The solver reported a name that is not in the model. -/
  | unknownVariable (name : String)
deriving DecidableEq, Repr

/-- What is said about a failed solve. -/
def SolveError.message : SolveError → String
  | file error => "IO error: " ++ error.message
  | unknownVariable name =>
    "Solver reported a variable that is not in the model: " ++ name

/-- A solution, none or an error; the caller is not told why there is none. -/
abbrev Answer := Except SolveError (Option Solution)

end MixedInteger
