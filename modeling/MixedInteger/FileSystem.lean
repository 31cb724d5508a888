/-!
# File systems

A file system says what stands at each location.  Paths are texts; they are
followed from the working directory, or from the root if they start with a
slash, and every location on the way has to be a directory.  Names and paths
have a greatest length in bytes.  Removing and writing touch regular files only,
and nothing but the location they are given.
-/

namespace MixedInteger

/-- Why an operation on a file fails. -/
inductive FileError where
  | missing
  | notDirectory
  | isDirectory
  | invalidPath
  | nameTooLong
deriving DecidableEq, Repr

/-- What is said about a failed operation on a file. -/
def FileError.message : FileError → String
  | missing => "No such file or directory (os error 2)"
  | notDirectory => "Not a directory (os error 20)"
  | isDirectory => "Is a directory (os error 21)"
  | invalidPath => "file name contained an unexpected NUL byte"
  | nameTooLong => "File name too long (os error 36)"

/-- A place in a file system: the names that lead to it from the root, the last one first. -/
abbrev Location := List String

inductive Node where
  | file (content : ByteArray)
  | directory

/-- The nodes of a file system and the directory that relative paths start from. -/
structure FileSystem where
  node? : Location → Option Node
  working : Location

namespace FileSystem

/-- The file system that holds nothing but the directories down to the working directory. -/
def bare (working : Location) : FileSystem where
  node? place := if place.isSuffixOf working then some .directory else none
  working := working

/-- The file system with another node at one location. -/
def put (files : FileSystem) (place : Location) (node : Option Node) : FileSystem :=
  { files with node? := fun other => if other = place then node else files.node? other }

/-- The location that one part of a path leads to from a directory. -/
def enter (place : Location) (part : String) : Location :=
  if part = "" || part = "." then place
  else if part = ".." then place.tail
  else part :: place

/-- The greatest number of bytes of a name. -/
def nameLimit : Nat := 255

/-- The greatest number of bytes of a path. -/
def pathLimit : Nat := 4095

/-- The location that the parts of a path lead to. -/
def walk (files : FileSystem) : Location → List String → Except FileError Location
  | place, [] => .ok place
  | place, part :: rest =>
    match files.node? place with
    | none => .error .missing
    | some (.file _) => .error .notDirectory
    | some .directory =>
      if nameLimit < part.utf8ByteSize then .error .nameTooLong
      else walk files (enter place part) rest

/-- The locations that parts of a path lead through, the last one included. -/
def trail : Location → List String → List Location
  | place, [] => [place]
  | place, part :: rest => place :: trail (enter place part) rest

/-- The parts of a path between its slashes. -/
def partsOf (path : List Char) : List String :=
  (path.splitOnP (· == '/')).map String.ofList

/-- The location that a path leads to, at which nothing needs to stand yet. -/
def resolve (files : FileSystem) (path : String) : Except FileError Location :=
  if path.toList.contains '\x00' then .error .invalidPath
  else if pathLimit < path.utf8ByteSize then .error .nameTooLong
  else
    match path.toList with
    | [] => .error .missing
    | '/' :: rest => files.walk [] (partsOf rest)
    | chars => files.walk files.working (partsOf chars)

/-- The locations that a path leads through where every one of them is a directory. -/
def trailOf (working : Location) (path : String) : List Location :=
  match path.toList with
  | '/' :: rest => trail [] (partsOf rest)
  | chars => trail working (partsOf chars)

/-- The file system with directories all along a path. -/
def makeDirectories (files : FileSystem) (path : String) : FileSystem :=
  (trailOf files.working path).foldl (fun files place => files.put place (some .directory)) files

/-- The content of the regular file at a path. -/
def read (files : FileSystem) (path : String) : Except FileError ByteArray :=
  match files.resolve path with
  | .error e => .error e
  | .ok place =>
    match files.node? place with
    | none => .error .missing
    | some .directory => .error .isDirectory
    | some (.file content) => .ok content

/-- The text of the regular file at a path, if it is valid text. -/
def readText? (files : FileSystem) (path : String) : Option String :=
  match files.read path with
  | .ok content => String.fromUTF8? content
  | .error _ => none

/-- The regular file at a path is removed. -/
def remove (files : FileSystem) (path : String) : Except FileError FileSystem :=
  match files.resolve path with
  | .error e => .error e
  | .ok place =>
    match files.node? place with
    | none => .error .missing
    | some .directory => .error .isDirectory
    | some (.file _) => .ok (files.put place none)

/-- A regular file at a path, new or in place of an old one, has a given content. -/
def write (files : FileSystem) (path : String) (content : ByteArray) :
    Except FileError FileSystem :=
  match files.resolve path with
  | .error e => .error e
  | .ok place =>
    match files.node? place with
    | some .directory => .error .isDirectory
    | _ => .ok (files.put place (some (.file content)))

/-- Whatever stands at a path, if anything does. -/
def at? (files : FileSystem) (path : String) : Option Node :=
  match files.resolve path with
  | .error _ => none
  | .ok place => files.node? place

/-- The file that may stand at a path is gone; that nothing stands there is no failure. -/
def clear (files : FileSystem) (path : String) : Except FileError FileSystem :=
  match files.remove path with
  | .ok files => .ok files
  | .error .missing => .ok files
  | .error e => .error e

end FileSystem

end MixedInteger
