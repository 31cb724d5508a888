import MixedInteger.Text.Blank

/-!
# Relations and directions

The relation of a constraint and the direction of an objective.  Both are read
from short texts with white space around them allowed; strict and weak
inequalities stay apart.
-/

namespace MixedInteger

/-- A text that names no relation, or no direction. -/
structure UnknownSense where
  token : String
deriving DecidableEq, Repr

/-- What is said about a text that names no relation or direction. -/
def UnknownSense.message (unknown : UnknownSense) : String :=
  "Unknown sense: " ++ unknown.token

inductive Relation where
  | less
  | lessEqual
  | greater
  | greaterEqual
  | equal
deriving DecidableEq, Repr

namespace Relation

def token : Relation → String
  | less => "<"
  | lessEqual => "<="
  | greater => ">"
  | greaterEqual => ">="
  | equal => "="

/-- The relation that a text names; an equation may be spelled with one sign or two. -/
def parse (text : String) : Except UnknownSense Relation :=
  match String.ofList (Text.trimmed text.toList) with
  | "<" => .ok less
  | "<=" => .ok lessEqual
  | ">" => .ok greater
  | ">=" => .ok greaterEqual
  | "=" => .ok equal
  | "==" => .ok equal
  | other => .error ⟨other⟩

end Relation

inductive Direction where
  | minimize
  | maximize
deriving DecidableEq, Repr

namespace Direction

/-- The first line of a written model. -/
def keyword : Direction → String
  | minimize => "min"
  | maximize => "max"

/-- The direction that a text names, in any mixture of ASCII cases. -/
def parse (text : String) : Except UnknownSense Direction :=
  match String.ofList ((Text.trimmed text.toList).map Char.toLower) with
  | "min" => .ok minimize
  | "minimize" => .ok minimize
  | "max" => .ok maximize
  | "maximize" => .ok maximize
  | other => .error ⟨other⟩

end Direction

end MixedInteger
