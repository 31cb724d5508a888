import MixedInteger.CommandLine.Command
import MixedInteger.Solver

/-!
# Arguments

A command line is read from left to right.  Options stand before or after the
words of their level: those of the program before the name of the command, those
of the command after it.  A long option takes its value after an equals sign or
as the next argument, a short one also directly behind its letter, and letters
without values may share one argument.  After a double dash everything is a
word, and so it is after the command that asks for help, even a double dash.  No
option may be given twice at one level, and the first fault or request for help
decides.
-/

namespace MixedInteger.CommandLine

/-- Why a command line is not carried out. -/
inductive Stop where
  | help
  | misuse
deriving DecidableEq, Repr

inductive Role where
  | help
  | flag
  /-- The option has a value, one of the admitted ones. -/
  | value (admits : String → Bool)

/-- An option with its long name and its letter. -/
structure Rule where
  name : String
  letter : Option Char
  role : Role

/-- The parts of a command line below which options are told apart. -/
inductive Level where
  | program
  | exportModel
  | solve
  | check
  | help
deriving DecidableEq, Repr

/-- Paths are not empty. -/
def isPath (text : String) : Bool := text != ""

def Choice.parse? : String → Option Choice
  | "cplex" => some .cplex
  | "scip" => some .scip
  | _ => none

def sharedRules : List Rule :=
  [⟨"help", some 'h', .help⟩, ⟨"verbose", some 'v', .flag⟩]

namespace Level

def ofWord? : String → Option Level
  | "export" => some .exportModel
  | "solve" => some .solve
  | "check" => some .check
  | "help" => some .help
  | _ => none

def rules : Level → List Rule
  | .program => sharedRules
  | .exportModel => sharedRules ++ [⟨"output", some 'o', .value isPath⟩]
  | .solve => sharedRules ++
      [⟨"solver", some 's', .value fun text => (Choice.parse? text).isSome⟩,
        ⟨"quiet", some 'q', .flag⟩,
        ⟨"scip-path", none, .value isPath⟩,
        ⟨"work-file", some 'w', .value isPath⟩,
        ⟨"format", some 'f', .value fun _ => true⟩]
  | .check => sharedRules
  | .help => []

def admits : Level → String → Bool
  | .program, _ => false
  | .help, word => (ofWord? word).isSome
  | _, word => isPath word

end Level

/-- What has been read of a command line. -/
structure Progress where
  level : Level
  verbose : Bool
  /-- The options of the level, flags with an empty value. -/
  given : List (String × String)
  word : Option String
  /-- An option whose value is the next argument. -/
  awaiting : Option (String × (String → Bool))
  wordsOnly : Bool

namespace Progress

def start : Progress := ⟨.program, false, [], none, none, false⟩

def has (progress : Progress) (name : String) : Bool :=
  (progress.given.lookup name).isSome

/-- An option with its value, which may be given once. -/
def give (progress : Progress) (name value : String) : Except Stop Progress :=
  if progress.has name then .error .misuse
  else .ok { progress with given := (name, value) :: progress.given, awaiting := none }

/-- An option with a value that has to be admitted. -/
def giveValue (progress : Progress) (name : String) (admits : String → Bool) (value : String) :
    Except Stop Progress :=
  if admits value then progress.give name value else .error .misuse

/-- A word names the command, or is what the command is about. -/
def takeWord (progress : Progress) (word : String) : Except Stop Progress :=
  match progress.level, progress.word with
  | .program, _ =>
    match Level.ofWord? word with
    | some level =>
      if progress.wordsOnly then .error .misuse
      else .ok { Progress.start with
        level := level
        verbose := progress.has "verbose"
        wordsOnly := level == .help }
    | none => .error .misuse
  | level, none =>
    if level.admits word then .ok { progress with word := some word } else .error .misuse
  | _, some _ => .error .misuse

/-- The name and the value of a long option, split at the first equals sign. -/
def splitAtEquals (text : List Char) : List Char × Option (List Char) :=
  match text.dropWhile (· != '=') with
  | [] => (text, none)
  | _ :: value => (text.takeWhile (· != '='), some value)

/-- A long option, given without its dashes. -/
def takeLong (progress : Progress) (text : List Char) : Except Stop Progress :=
  let (name, value?) := splitAtEquals text
  match progress.level.rules.find? (·.name == String.ofList name) with
  | none => .error .misuse
  | some rule =>
    match rule.role, value? with
    | .help, none => .error .help
    | .flag, none => progress.give rule.name ""
    | .value admits, none => .ok { progress with awaiting := some (rule.name, admits) }
    | .value admits, some value => progress.giveValue rule.name admits (String.ofList value)
    | _, some _ => .error .misuse

/-- Short options that share an argument, given without the dash. -/
def takeLetters (progress : Progress) : List Char → Except Stop Progress
  | [] => .ok progress
  | letter :: rest =>
    match progress.level.rules.find? (·.letter == some letter) with
    | none => .error .misuse
    | some rule =>
      match rule.role with
      | .help => .error .help
      | .flag => do
        let progress ← progress.give rule.name ""
        takeLetters progress rest
      | .value admits =>
        match rest with
        | [] => .ok { progress with awaiting := some (rule.name, admits) }
        | '=' :: value => progress.giveValue rule.name admits (String.ofList value)
        | value => progress.giveValue rule.name admits (String.ofList value)

def step (progress : Progress) (argument : String) : Except Stop Progress :=
  if progress.wordsOnly then progress.takeWord argument
  else
    match progress.awaiting, argument.toList with
    | some _, '-' :: _ :: _ => .error .misuse
    | some (name, admits), _ => progress.giveValue name admits argument
    | none, ['-', '-'] => .ok { progress with wordsOnly := true }
    | none, '-' :: '-' :: text => progress.takeLong text
    | none, '-' :: letter :: rest => progress.takeLetters (letter :: rest)
    | none, _ => progress.takeWord argument

def value? (progress : Progress) (name : String) : Option String :=
  progress.given.lookup name

/-- The executable of SCIP: as given, else from the environment, else the usual one. -/
def scipPath (progress : Progress) (environment : Option String) : Except Stop String :=
  match progress.value? "scip-path", environment with
  | some path, _ => .ok path
  | none, some path => if isPath path then .ok path else .error .misuse
  | none, none => .ok Solver.scipExecutable

def solveOptions (progress : Progress) (environment : Option String) :
    Except Stop SolveOptions := do
  let scipPath ← progress.scipPath environment
  return {
    choice := ((progress.value? "solver").bind Choice.parse?).getD .scip
    quiet := progress.has "quiet"
    scipPath := scipPath
    workFile := progress.value? "work-file"
    format := (progress.value? "format").getD "pretty" }

/-- What a command line that has been read to its end asks for. -/
def finish (progress : Progress) (environment : Option String) : Except Stop Request :=
  let verbose := progress.verbose || progress.has "verbose"
  if progress.awaiting.isSome then .error .misuse
  else
    match progress.level, progress.word with
    | .help, _ => .ok .help
    | .exportModel, some file => .ok (.run verbose (.exportModel file (progress.value? "output")))
    | .solve, some file => do
      let options ← progress.solveOptions environment
      return .run verbose (.solve file options)
    | .check, some file => .ok (.run verbose (.check file))
    | _, _ => .error .misuse

end Progress

/-- The request of a command line, none if the command line is misused. -/
def Request.parse? (environment : Option String) (arguments : List String) : Option Request :=
  match arguments.foldlM Progress.step Progress.start with
  | .error .help => some .help
  | .error .misuse => none
  | .ok progress =>
    match progress.finish environment with
    | .ok request => some request
    | .error .help => some .help
    | .error .misuse => none

end MixedInteger.CommandLine
