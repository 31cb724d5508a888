import MixedInteger.Solver.Exchange

/-!
# Scripted solvers

A scripted solver stands in for a real one: it prints a fixed text, leaves a
fixed report where it is told to write one, and exits with a fixed code.  It can
be started as long as its file is the one that was installed.
-/

namespace MixedInteger

/-- What a scripted solver does whenever it is started. -/
structure Script where
  printed : String
  report : Option ByteArray
  code : Nat

namespace Script

/-- The names under which the scripted solver is installed. -/
def programs : List String := ["scip", "cplex"]

/-- What stands in the file of an installed scripted solver. -/
def executable : ByteArray := "#!".toUTF8

/-- The files with the scripted solver installed in a directory. -/
def install (directory : Location) (files : FileSystem) : FileSystem :=
  programs.foldl (fun files name => files.put (name :: directory) (some (.file executable))) files

/-- A file is an installed scripted solver; other contents cannot be started. -/
def isExecutable : Option Node → Bool
  | some (.file content) => content == executable
  | _ => false

/-- The rest of a text after a given beginning. -/
def rest? (start text : String) : Option String :=
  if text.startsWith start then some (text.drop start.length).toString else none

/-- The path to which the arguments ask for a report. -/
def reportPath? (arguments : List String) : Option String :=
  match arguments.findSome? (rest? "write solution ") with
  | some path => some path
  | none => arguments.findSome? (rest? "write ")

/-- The files after the report is written; a report that cannot be written is lost. -/
def leave (script : Script) (arguments : List String) (files : FileSystem) : FileSystem :=
  match script.report, reportPath? arguments with
  | some content, some path =>
    match files.write path content with
    | .ok files => files
    | .error _ => files
  | _, _ => files

/-- The location of a program: on the search path if it is a bare name. -/
def place? (directory : Location) (program : String) (files : FileSystem) : Option Location :=
  if program.toList.contains '/' then
    match files.resolve program with
    | .ok place => some place
    | .error _ => none
  else some (program :: directory)

/-- The scripted solver, installed in a directory of the search path. -/
def launcher (script : Script) (directory : Location) : Launcher := fun invocation files =>
  match place? directory invocation.program files with
  | some place =>
    if place.tail == directory && isExecutable (files.node? place) then
      .exited (.code (script.code % 256)) (script.leave invocation.arguments files) script.printed
    else .failed
  | none => .failed

end Script

end MixedInteger
