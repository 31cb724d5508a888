import MixedInteger.Json.Form
import MixedInteger.Model.Tally
import MixedInteger.Solution.Json

/-!
# Display of answers

What the command line prints for a checked model and for a solution, either as
JSON or as aligned lines.
-/

namespace MixedInteger.CommandLine

/-- Displayed numbers never have a power of ten, and whole ones have no point. -/
def numberStyle : Decimal.Style where
  positional _ := true
  pointed := false
  plus := false
  tie := .up

/-- A text with blanks behind it, up to a width. -/
def paddedRight (width : Nat) (text : String) : String :=
  text ++ String.ofList (List.replicate (width - text.length) ' ')

/-- A text with blanks in front of it, up to a width. -/
def paddedLeft (width : Nat) (text : String) : String :=
  String.ofList (List.replicate (width - text.length) ' ') ++ text

/-- Lines as a text, each with its line feed. -/
def joinLines (lines : List String) : String :=
  String.join (lines.map (· ++ "\n"))

def valueLine (name : String) (value : Float) : String :=
  "  " ++ paddedRight 20 name ++ " " ++ paddedLeft 12 (numberStyle.write value)

def solutionLines (solution : Solution) : List String :=
  ["Status: OPTIMAL", "Objective: " ++ numberStyle.write solution.objective, "", "Variables:"] ++
    solution.byName.entries.map fun p => valueLine p.1 p.2

/-- A solution in a format; any format but JSON stands for aligned lines. -/
def solutionText (format : String) (solution : Solution) : String :=
  if format = "json" then (Json.Form.write solution.summary).writeIndented ++ "\n"
  else joinLines (solutionLines solution)

/-- What is printed when a solver gives no solution. -/
def noSolutionText (solver : String) : String :=
  joinLines ["Status: NO SOLUTION", solver ++ " did not report an optimal solution."]

def countLine (count : Nat) (what : String) : String :=
  "  " ++ toString count ++ " " ++ what

/-- What is printed for the tally of a valid model. -/
def tallyText (file : String) (tally : Tally) : String :=
  joinLines
    (["✓ " ++ file ++ " is valid",
      countLine tally.continuous "continuous variables",
      countLine tally.integer "integer variables",
      countLine tally.binary "binary variables",
      countLine tally.constraints "constraints"] ++
    (if tally.unmentioned = 0 then []
      else [countLine tally.unmentioned
        "variables appear in no constraint and will not be declared"]))

end MixedInteger.CommandLine
