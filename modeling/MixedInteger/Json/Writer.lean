import MixedInteger.Json
import MixedInteger.Json.Quoted

/-!
# Writing JSON

The compact form has no blanks.  The indented form puts every item and member on
a line of its own, two spaces deeper than the array or object that holds it, and
leaves empty arrays and objects as they are in the compact form.
-/

namespace MixedInteger.Json

def booleanText (value : Bool) : List Char :=
  if value then "true".toList else "false".toList

mutual

def compact : Json → List Char
  | null => "null".toList
  | boolean value => booleanText value
  | number literal => literal.toList
  | text content => Quoted.write content
  | array items => '[' :: (compactItems items ++ [']'])
  | object members => '\x7b' :: (compactMembers members ++ ['\x7d'])
termination_by structural value => value

def compactItems : List Json → List Char
  | [] => []
  | [value] => value.compact
  | value :: rest => value.compact ++ ',' :: compactItems rest
termination_by structural items => items

def compactMembers : List (Option String × Json) → List Char
  | [] => []
  | [(key, value)] => Quoted.write key ++ ':' :: value.compact
  | (key, value) :: rest => Quoted.write key ++ ':' :: (value.compact ++ ',' :: compactMembers rest)
termination_by structural members => members

end

def lineBreak (level : Nat) : List Char :=
  '\n' :: List.replicate (2 * level) ' '

mutual

def indented (level : Nat) : Json → List Char
  | null => "null".toList
  | boolean value => booleanText value
  | number literal => literal.toList
  | text content => Quoted.write content
  | array [] => ['[', ']']
  | array items => '[' :: (indentedItems (level + 1) items ++ lineBreak level ++ [']'])
  | object [] => ['\x7b', '\x7d']
  | object members =>
    '\x7b' :: (indentedMembers (level + 1) members ++ lineBreak level ++ ['\x7d'])
termination_by structural value => value

/-- The indented texts of some items, each on a line of its own. -/
def indentedItems (level : Nat) : List Json → List Char
  | [] => []
  | [value] => lineBreak level ++ value.indented level
  | value :: rest => lineBreak level ++ value.indented level ++ ',' :: indentedItems level rest
termination_by structural items => items

/-- The indented texts of some members, each on a line of its own. -/
def indentedMembers (level : Nat) : List (Option String × Json) → List Char
  | [] => []
  | [(key, value)] =>
    lineBreak level ++ Quoted.write key ++ ':' :: ' ' :: value.indented level
  | (key, value) :: rest =>
    lineBreak level ++ Quoted.write key ++ ':' :: ' ' :: value.indented level ++
      ',' :: indentedMembers level rest
termination_by structural members => members

end

def write (value : Json) : String := String.ofList value.compact

def writeIndented (value : Json) : String := String.ofList (value.indented 0)

end MixedInteger.Json
