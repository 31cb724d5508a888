import MixedInteger.Report
import MixedInteger.Text.Line

/-!
# Reports in lines

The first line is a fixed status, the second ends with the value of the
objective, and every further line starts with a name and a value.  Lines without
words are passed over.
-/

namespace MixedInteger.Report

/-- The first line of the report on a solved model. -/
def optimalStatus : String := "solution status: optimal solution found"

/-- The entry of a line, unless the line has no words. -/
def entryOfLine? (line : List Char) : Option Entry :=
  match Text.words line with
  | [] => none
  | name :: rest =>
    match rest.head?.bind finite? with
    | some value => some (.ok (String.ofList name, value))
    | none =>
      some (.error (.tell (.rejected (.unusableLine (String.ofList line))) (.give (.ok none))))

/-- The value at the end of the second line. -/
def objectiveOfLines? (lines : List (List Char)) : Option Float :=
  lines.head?.bind fun line => (Text.words line).getLast?.bind finite?

def readLines (vars : VariableSet) (lines : List (List Char)) : Reading :=
  let status := String.ofList (Text.trimmed (lines.headD []))
  if status != optimalStatus then .tell (.rejected (.notOptimal status)) (.give (.ok none))
  else
    match objectiveOfLines? lines.tail with
    | none => .tell (.rejected .noObjectiveLine) (.give (.ok none))
    | some objective => ofEntries vars objective (lines.tail.tail.filterMap entryOfLine?)

def readText (vars : VariableSet) (text : String) : Reading :=
  readLines vars (Text.lines text.toList)

end MixedInteger.Report
