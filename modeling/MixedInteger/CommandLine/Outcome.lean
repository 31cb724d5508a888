import MixedInteger.CommandLine.Command
import MixedInteger.CommandLine.Display
import MixedInteger.Document.Json
import MixedInteger.Solver.Exchange

/-!
# Outcomes of commands

A command ends with an exit code, what it prints, what it complains about and
the world it leaves.  It prints nothing before a solver that it starts has
ended.
-/

namespace MixedInteger.CommandLine

/-- Why a model file cannot be used. -/
inductive LoadError where
  | file (error : FileError)
  | notText
  | malformed
  | model (error : ModelError Float)

/-- What is said about a model file that cannot be used. -/
def LoadError.message : LoadError → String
  | file error => "Error reading file: " ++ error.message
  | notText => "Error reading file: stream did not contain valid UTF-8"
  | malformed => "Parse error: the text is not a model document"
  | model error => "Model error: " ++ error.message

def modelOfText (text : String) : Except LoadError (Model Float) :=
  match (Json.decode? text : Option (Document Float)) with
  | none => .error .malformed
  | some document => document.compile.mapError .model

def loadModel (files : FileSystem) (path : String) : Except LoadError (Model Float) :=
  match files.read path with
  | .error error => .error (.file error)
  | .ok content =>
    match String.fromUTF8? content with
    | none => .error .notText
    | some text => modelOfText text

structure Outcome where
  code : Nat
  /-- What the command itself prints, after the output of a solver. -/
  printed : String
  complaint : String
  world : World

namespace Outcome

def success (printed : String) (world : World) : Outcome :=
  ⟨0, printed, "", world⟩

def failure (complaint : String) (world : World) : Outcome :=
  ⟨1, "", complaint ++ "\n", world⟩

/-- All that is printed: the output of the solver, then that of the command. -/
def output (outcome : Outcome) : String :=
  outcome.world.printed ++ outcome.printed

end Outcome

def SolveOptions.solver (options : SolveOptions) : Solver :=
  match options.choice with
  | .cplex => .cplex ⟨options.workFile.getD Solver.cplexModelPath, options.quiet⟩
  | .scip => .scip ⟨options.workFile.getD Solver.scipModelPath, options.quiet⟩ options.scipPath

/-- The paths at which a command reads or changes files. -/
def Command.paths : Command → List String
  | exportModel file output => file :: output.toList
  | solve file options =>
    [file, options.solver.settings.modelPath, options.solver.settings.reportPath]
  | check file => [file]

/-- The text of a model is printed, or written to a path. -/
def runExport (model : Model Float) (output : Option String) (world : World) : Outcome :=
  let e := Export.ofModel model
  match output with
  | none => .success e.text world
  | some path =>
    match e.run path false world with
    | (.ok _, world) => .success "" world
    | (.error error, world) => .failure ("Export error: " ++ error.message) world

def runSolve (launcher : Launcher) (model : Model Float) (options : SolveOptions)
    (world : World) : Outcome :=
  match options.solver.solve launcher (Export.ofModel model) world with
  | (.ok (some solution), world) => .success (solutionText options.format solution) world
  | (.ok none, world) => ⟨1, noSolutionText options.solver.name, "", world⟩
  | (.error error, world) => .failure ("Solver error: " ++ error.message) world

def Command.run (launcher : Launcher) (command : Command) (files : FileSystem) : Outcome :=
  let world := World.ofFiles files
  match loadModel files command.file with
  | .error error => .failure error.message world
  | .ok model =>
    match command with
    | .exportModel _ output => runExport model output world
    | .solve _ options => runSolve launcher model options world
    | .check file => .success (tallyText file model.tally) world

end MixedInteger.CommandLine
