/-!
# Lines of a text

A line ends at a line feed, and a carriage return directly before that line
feed belongs to the ending.  Characters after the last line feed form a line of
their own, from which no carriage return is taken.
-/

namespace MixedInteger.Text

/-- A terminated line without the carriage return of its ending. -/
def withoutReturn (line : List Char) : List Char :=
  if line.getLast? = some '\r' then line.dropLast else line

/-- The lines of a text, given the pieces between its line feeds. -/
def linesOfPieces : List (List Char) → List (List Char)
  | [] => []
  | [last] => if last.isEmpty then [] else [last]
  | piece :: rest => withoutReturn piece :: linesOfPieces rest

/-- The lines of a text, without their endings. -/
def lines (text : List Char) : List (List Char) :=
  linesOfPieces (text.splitOnP (· == '\n'))

end MixedInteger.Text
