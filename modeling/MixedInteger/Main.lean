import MixedInteger.CommandLine.Arguments
import MixedInteger.CommandLine.Outcome

/-!
# The program

The files that a command is about are looked up, the command is carried out on
what was found, and the files that it changed are written back.  The program
starts no other programs, so that no solver can be launched from it.
-/

namespace MixedInteger.CommandLine

def absolutePath (place : Location) : String :=
  "/" ++ String.intercalate "/" place.reverse

/-- What stands at a location of the disk; a directory is what cannot be read as a file. -/
def lookUp (place : Location) : IO (Option Node) := do
  try
    return some (.file (← IO.FS.readBinFile (absolutePath place)))
  catch error =>
    match error with
    | .inappropriateType .. => return some .directory
    | _ => return none

/-- The locations that some paths lead through. -/
def placesOf (working : Location) (paths : List String) : List Location :=
  (paths.flatMap (FileSystem.trailOf working)).eraseDups

/-- The part of the disk at some locations. -/
def survey (working : Location) (places : List Location) : IO FileSystem := do
  let found ← places.filterMapM fun place => do
    return (← lookUp place).map fun node => (place, node)
  return ⟨fun place => found.lookup place, working⟩

/-- The change of one location is carried out on the disk. -/
def settle (found left : FileSystem) (place : Location) : IO Unit :=
  match found.node? place, left.node? place with
  | some (.file old), some (.file new) =>
    if old == new then pure () else IO.FS.writeBinFile (absolutePath place) new
  | none, some (.file new) => IO.FS.writeBinFile (absolutePath place) new
  | some (.file _), none => IO.FS.removeFile (absolutePath place)
  | _, _ => pure ()

def eventLine (event : Event) : String :=
  let fields := event.fields.map fun
    | (name, .count n) => " " ++ name ++ "=" ++ toString n
    | (name, .text s) => " " ++ name ++ "=" ++ s
  event.level.label ++ " " ++ event.message ++ String.join fields

def isShown (verbose : Bool) (event : Event) : Bool :=
  verbose || event.level != .debug

def usage : String :=
  joinLines
    ["Usage: [-v] <command> <file>",
      "",
      "Commands:",
      "  export  Write the text of a model [-o <path>]",
      "  solve   Solve a model [-s cplex|scip] [-q] [--scip-path <path>] [-w <path>] [-f <format>]",
      "  check   Check a model for errors"]

/-- A command is carried out on the disk. -/
def perform (verbose : Bool) (command : Command) : IO UInt32 := do
  let directory ← IO.currentDir
  let working := ((FileSystem.partsOf directory.toString.toList).filter (· != "")).reverse
  let places := placesOf working command.paths
  let found ← survey working places
  let outcome := command.run (fun _ _ => .failed) found
  for place in places do
    settle found outcome.world.files place
  for event in outcome.world.events do
    if isShown verbose event then IO.eprintln (eventLine event)
  IO.print outcome.output
  IO.eprint outcome.complaint
  return outcome.code.toUInt32

end MixedInteger.CommandLine

/-- The program reads its arguments and carries out the command they ask for. -/
def main (arguments : List String) : IO UInt32 := do
  let environment ← IO.getEnv "MILPKIT_SCIP"
  match MixedInteger.CommandLine.Request.parse? environment arguments with
  | none =>
    IO.eprint MixedInteger.CommandLine.usage
    return 2
  | some .help =>
    IO.print MixedInteger.CommandLine.usage
    return 0
  | some (.run verbose command) => MixedInteger.CommandLine.perform verbose command
