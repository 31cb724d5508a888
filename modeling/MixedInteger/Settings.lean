/-!
# Settings of a solver

Where a model is exchanged with a solver, and whether the solver is to be quiet.
The solver leaves its report beside the model.
-/

namespace MixedInteger

/-- The path of the model text, and whether output is unwanted. -/
structure Settings where
  modelPath : String
  quiet : Bool
deriving DecidableEq, Repr

namespace Settings

/-- Settings that exchange the model at a path and do not suppress anything. -/
def ofModelPath (modelPath : String) : Settings := ⟨modelPath, false⟩

def reportPath (settings : Settings) : String :=
  settings.modelPath ++ ".sol"

end Settings

end MixedInteger
