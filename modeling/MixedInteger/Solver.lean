import MixedInteger.Report.Document
import MixedInteger.Report.Lines
import MixedInteger.Settings

/-!
# Solvers

Two solvers are known.  Each is told on its command line to read the model, to
optimize it, to write a report and to quit; they differ in the commands they
take, in how they are kept quiet and in the form of their reports.
-/

namespace MixedInteger

/-- A program, its arguments, and whether its output is thrown away. -/
structure Invocation where
  program : String
  arguments : List String
  discarded : Bool
deriving DecidableEq, Repr

namespace Invocation

/--
A program finds its words one behind the other, each closed by a null character,
so a word that holds one cannot be handed over.
-/
def canPass (word : String) : Bool := !word.toList.contains '\x00'

/-- A word as it is shown: one that cannot be handed over is not quoted. -/
def shownWord (word : String) : String :=
  if canPass word then word else "<string-with-nul>"

/-- The program and its arguments as they are shown. -/
def shown (invocation : Invocation) : Invocation :=
  { invocation with
    program := shownWord invocation.program
    arguments := invocation.arguments.map shownWord }

end Invocation

inductive Solver where
  | cplex (settings : Settings)
  | scip (settings : Settings) (executable : String)
deriving DecidableEq, Repr

namespace Solver

/-- The executable of a SCIP that is installed in the usual way. -/
def scipExecutable : String := "scip"

/-- Where the model is exchanged with CPLEX unless told otherwise. -/
def cplexModelPath : String := "cplex-input.lp"

/-- Where the model is exchanged with SCIP unless told otherwise. -/
def scipModelPath : String := "scip-input.lp"

def name : Solver → String
  | cplex _ => "CPLEX"
  | scip _ _ => "SCIP"

def settings : Solver → Settings
  | cplex settings => settings
  | scip settings _ => settings

def invocation : Solver → Invocation
  | cplex settings =>
    ⟨"cplex",
      ["-c", "read " ++ settings.modelPath, "optimize", "write " ++ settings.reportPath, "q"],
      settings.quiet⟩
  | scip settings executable =>
    ⟨executable,
      (if settings.quiet then ["-q"] else []) ++
        ["-c", "read " ++ settings.modelPath, "-c", "optimize",
          "-c", "write solution " ++ settings.reportPath, "-c", "q"],
      false⟩

/-- The reading of a report that the solver wrote. -/
def readReport : Solver → VariableSet → String → Report.Reading
  | cplex _ => Report.readXml
  | scip _ _ => Report.readText

end Solver

end MixedInteger
