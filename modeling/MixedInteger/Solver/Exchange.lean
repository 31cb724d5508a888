import MixedInteger.FileSystem
import MixedInteger.Model
import MixedInteger.Solver
import MixedInteger.Solver.Error
import MixedInteger.Solver.Event

/-!
# Exchanges with a solver

A solve writes the model, runs the solver once and reads the report it leaves.
Whatever stood at the path of the model or of the report is removed first, so
that nothing old can be taken for a result.  A solver that cannot be started or
fails is only told about; what counts is the report.

The solver itself is an arbitrary function of its invocation and of the files it
finds.  A world is what an exchange changes: the files, and a record of what was
told, printed and started.
-/

namespace MixedInteger

/-- How starting a program ends. -/
inductive Launch where
  | failed
  /-- The exit status, the files left behind and what was printed. -/
  | exited (status : ExitStatus) (files : FileSystem) (printed : String)

/-- What happens when a program is started among some files. -/
abbrev Launcher := Invocation → FileSystem → Launch

/-- A program that was to be started, the files it was to find, and how that ended. -/
structure Attempt where
  invocation : Invocation
  found : FileSystem
  result : Launch

/-- The files and the record of an exchange. -/
structure World where
  files : FileSystem
  events : List Event
  printed : String
  attempts : List Attempt

namespace World

/-- A world in which nothing has happened yet. -/
def ofFiles (files : FileSystem) : World := ⟨files, [], "", []⟩

def tell (world : World) (event : Event) : World :=
  { world with events := world.events ++ [event] }

/-- Events that were told on the way are added to the record. -/
def tellAll (world : World) (events : List Event) : World :=
  { world with events := world.events ++ events }

def withFiles (world : World) (files : FileSystem) : World :=
  { world with files := files }

/-- One more attempt to start a program, whose output is kept unless it is discarded. -/
def attempt (world : World) (invocation : Invocation) (result : Launch) : World :=
  let world := { world with attempts := world.attempts ++ [⟨invocation, world.files, result⟩] }
  match result with
  | .failed => world
  | .exited _ files printed =>
    { world with
      files := files
      printed := if invocation.discarded then world.printed else world.printed ++ printed }

end World

/-- The text of a model with its objective, constraints and declared variables. -/
structure Export where
  direction : Direction
  objective : Expression Float
  constraints : List (Constraint Float)

namespace Export

/-- What a model hands to a solver. -/
def ofModel (model : Model Float) : Export :=
  ⟨model.direction, model.objective, model.constraints⟩

def declared (e : Export) : VariableSet :=
  Constraint.declared e.constraints

def text (e : Export) : String :=
  LpText.write e.direction e.objective e.constraints e.declared

/--
The text is written to a path, in place of any file there.  The event is told
after the old file is gone and before the new one is created.
-/
def run (e : Export) (path : String) (quiet : Bool) (world : World) :
    Except SolveError VariableSet × World :=
  match world.files.clear path with
  | .error error => (.error (.file error), world)
  | .ok files =>
    let world := (world.withFiles files).tell
      (.exporting quiet e.declared.size e.constraints.length)
    match world.files.write path e.text.toUTF8 with
    | .error error => (.error (.file error), world)
    | .ok files => (.ok e.declared, world.withFiles files)

end Export

namespace Solver

/-- The solver is started once; only the record shows how that ended. -/
def start (solver : Solver) (launcher : Launcher) (world : World) : World :=
  let world := world.tell (.launching solver.name)
  let result := launcher solver.invocation world.files
  let world := world.attempt solver.invocation result
  match result with
  | .failed => world.tell (.launchFailed solver.name)
  | .exited status _ _ =>
    if status.isSuccess then world else world.tell (.exitedAbnormally solver.name status)

/-- Any old report is removed, then the solver is started. -/
def optimize (solver : Solver) (launcher : Launcher) (world : World) :
    Except SolveError Unit × World :=
  match world.files.clear solver.settings.reportPath with
  | .error error => (.error (.file error), world)
  | .ok files => (.ok (), solver.start launcher (world.withFiles files))

/-- What the report at its path says; one that is no text is like a missing one. -/
def reading (solver : Solver) (vars : VariableSet) (files : FileSystem) : Report.Reading :=
  match files.readText? solver.settings.reportPath with
  | some text => solver.readReport vars text
  | none => .tell (.rejected .missing) (.give (.ok none))

/-- The solution in the report, if it gives one; what the reader tells is told. -/
def readSolution (solver : Solver) (vars : VariableSet) (world : World) :
    Except SolveError (Option Solution) × World :=
  let reading := solver.reading vars world.files
  (reading.answer, world.tellAll reading.events)

/-- The model is exported, the solver started and its report read. -/
def solve (solver : Solver) (launcher : Launcher) (e : Export) (world : World) :
    Except SolveError (Option Solution) × World :=
  match e.run solver.settings.modelPath solver.settings.quiet world with
  | (.error error, world) => (.error error, world)
  | (.ok vars, world) =>
    match solver.optimize launcher world with
    | (.error error, world) => (.error error, world)
    | (.ok (), world) => solver.readSolution vars world

end Solver

end MixedInteger
